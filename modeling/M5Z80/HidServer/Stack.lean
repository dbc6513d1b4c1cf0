import M5Z80.HidServer.PacketQ

/-!
# M5Z80.HidServer.Stack

The state of the Bluetooth host stack of `hci_server.cpp` and
`hid_server.cpp`, and its lower half: what is sent, and the L2CAP sockets.

The objects of one stack refer to each other through global tables, so its
functions are modelled on the state of all of them.  A `BTDevice` and an
`InputDevice` is its position in the table of its kind, which only grows; a
socket is its key in the `_sockets` of its device.  `none` is what C++ leaves
undefined: an access outside an array or a packet.
-/

namespace M5Z80
namespace HidServer

/-- `bdaddr_t`. -/
abbrev Bdaddr := Vector UInt8 6

/-- A `u16` in the packed structures of the protocol. -/
def le16 (x : UInt16) : List UInt8 := [x.toUInt8, (x >>> 8).toUInt8]

@[simp] theorem length_le16 (x : UInt16) : (le16 x).length = 2 := rfl

/-- The states of a socket, `L2CAP_NONE` to `L2CAP_DELETED`. -/
inductive L2capState
  | none | listening | opening | opened | closed | deleted
deriving DecidableEq

/-- `L2CAPSocket`. -/
structure L2CAPSocket where
  state : L2capState
  psm : UInt16
  scid : UInt16
  dcid : UInt16
  q : PacketQ

/-- `BTDevice`; `sockets` is the map `_sockets`, in the order of its keys. -/
structure BTDevice where
  addr : Bdaddr
  handle : Int
  packet : Packet
  packetPos : Nat
  packetCid : UInt16
  txid : UInt8
  flags : UInt32
  sockets : List (Int × L2CAPSocket)

/-- `SDPParse`, between its calls. -/
structure SDPParse where
  sdpSock : Int
  currentId : Int
  buf : List UInt8
  srvName : List UInt8
  srvDesc : List UInt8
  providerName : List UInt8
  hidDescriptor : List UInt8

/-- `InputDevice::State`. -/
inductive InputState
  | closed | connect | readingName | readingSdp | authenticating | opening | opened
deriving DecidableEq

/-- The length of `wii_states`. -/
abbrev wiiSlots : Nat := 4

/-- `InputDevice`. -/
structure InputDevice where
  state : InputState
  bdaddr : Bdaddr
  devClass : Nat
  name : List UInt8
  sdpHandler : Option SDPParse
  hidDescriptor : List UInt8
  reconnect : Bool
  sdp : Int
  control : Int
  interrupt : Int
  wiiIndex : Option (Fin wiiSlots)

/-- `wii_state`. -/
structure WiiState where
  flags : UInt32
  report : Vector UInt8 32

/-- The namespace `esp_8_bit` of the flash: the strings it holds, the strings
stored so far under their keys, oldest first, the number of calls of `nvs_open`
so far, and which of them give a handle, find their string and store theirs. -/
structure Nvs where
  strings : List UInt8 → Option (List UInt8)
  written : List (List UInt8 × List UInt8)
  calls : Nat
  opens : Nat → Bool
  gets : Nat → Bool
  sets : Nat → Bool

/-- A flash on which no call fails. -/
def Nvs.working (strings : List UInt8 → Option (List UInt8)) : Nvs :=
  ⟨strings, [], 0, fun _ => true, fun _ => true, fun _ => true⟩

/-- The tables `_devices` of both files, `_hci`, `wii_states`, the flash and the
packets that the controller has been given. -/
structure Stack where
  devices : List BTDevice
  hciState : UInt32
  cid : Int
  rx : PacketQ
  tx : PacketQ
  dongleBug : Packet
  inputs : List InputDevice
  wii : Vector WiiState wiiSlots
  nvs : Nvs
  sent : List Packet

namespace Stack

/-- The stack after `hid_init`. -/
def init (nvs : Nvs) : Stack where
  devices := []
  hciState := 0xFFFFFFFF
  cid := 0x40
  rx := PacketQ.empty
  tx := PacketQ.empty
  dongleBug := []
  inputs := []
  wii := Vector.replicate wiiSlots ⟨0, Vector.replicate 32 0⟩
  nvs := nvs
  sent := []

/-- Changes the device at `i`. -/
def modifyDevice (i : Nat) (f : BTDevice → BTDevice) (s : Stack) : Stack :=
  { s with devices := s.devices.modify i f }

/-- Changes the input device at `j`. -/
def modifyInput (j : Nat) (f : InputDevice → InputDevice) (s : Stack) : Stack :=
  { s with inputs := s.inputs.modify j f }

/-- `hci_write`. -/
def hciWrite (buf : Packet) (s : Stack) : Stack := { s with tx := (s.tx.write buf).2 }

end Stack

/-! ## sockets -/

/-- `SLAVE`, a bit of `_flags`. -/
def slave : UInt32 := 1

/-- `ACTIVE`. -/
def active : UInt32 := 2

/-- `_sockets[scid] = s`. -/
def insertSocket (scid : Int) (sock : L2CAPSocket) :
    List (Int × L2CAPSocket) → List (Int × L2CAPSocket)
  | [] => [(scid, sock)]
  | p :: rest =>
      if scid < p.1 then (scid, sock) :: p :: rest
      else if scid = p.1 then (scid, sock) :: rest
      else p :: insertSocket scid sock rest

namespace BTDevice

/-- A device from `add_device`. -/
def new (addr : Bdaddr) : BTDevice where
  addr := addr
  handle := -1
  packet := []
  packetPos := 0
  packetCid := 0
  txid := 1
  flags := slave
  sockets := []

/-- `BTDevice::get_socket`. -/
def getSocket (d : BTDevice) (scid : Int) : Option L2CAPSocket := d.sockets.lookup scid

/-- Changes the socket with key `scid`. -/
def modifySocket (scid : Int) (f : L2CAPSocket → L2CAPSocket) (d : BTDevice) : BTDevice :=
  { d with sockets := d.sockets.map fun p => if p.1 = scid then (p.1, f p.2) else p }

/-- `set_role`. -/
def setRole (role : UInt8) (d : BTDevice) : BTDevice :=
  { d with flags := if role ≠ 0 then d.flags ||| slave else d.flags &&& ~~~slave }

end BTDevice

namespace Stack

/-- `get_device` of `hci_server.cpp`. -/
def getDevice (addr : Bdaddr) (s : Stack) : Option Nat := s.devices.findIdx? fun d => d.addr = addr

/-- `get_device_by_handle`. -/
def getDeviceByHandle (handle : Int) (s : Stack) : Option Nat :=
  s.devices.findIdx? fun d => d.handle = handle

/-- `get_device_by_socket`. -/
def getDeviceBySocket (scid : Int) (s : Stack) : Option Nat :=
  s.devices.findIdx? fun d => (d.getSocket scid).isSome

/-- `get_device` of `hid_server.cpp`. -/
def getInput (addr : Bdaddr) (s : Stack) : Option Nat :=
  s.inputs.findIdx? fun d => d.bdaddr = addr

/-- `get_socket`: the first device with a socket of this key. -/
def getSocket (scid : Int) (s : Stack) : Option (Nat × L2CAPSocket) :=
  (s.getDeviceBySocket scid).bind fun i =>
    (s.devices[i]?).bind fun d => (d.getSocket scid).map fun sock => (i, sock)

/-- Changes the socket `scid` of the device at `i`. -/
def modifySocket (i : Nat) (scid : Int) (f : L2CAPSocket → L2CAPSocket) (s : Stack) : Stack :=
  s.modifyDevice i (BTDevice.modifySocket scid f)

end Stack

/-! ## outbound packets -/

/-- An `l2cap_data` with its payload. -/
def l2capData (handle : UInt16) (cid : UInt16) (data : List UInt8) : Packet :=
  0x02 :: (le16 handle ++ le16 (UInt16.ofNat (data.length + 4)) ++
    le16 (UInt16.ofNat data.length) ++ le16 cid ++ data)

/-- The commands of the signalling channel that are sent or handled. -/
def l2capConnReq : UInt8 := 0x02
def l2capConnRsp : UInt8 := 0x03
def l2capConfReq : UInt8 := 0x04
def l2capConfRsp : UInt8 := 0x05
def l2capDisconnReq : UInt8 := 0x06
def l2capDisconnRsp : UInt8 := 0x07
def l2capInfoReq : UInt8 := 0x0a
def l2capInfoRsp : UInt8 := 0x0b

/-- An `l2cap_cmd`. -/
def l2capCmd (cmd id : UInt8) (params : List UInt16) : List UInt8 :=
  [cmd, id] ++ le16 (UInt16.ofNat (params.length * 2)) ++ params.flatMap le16

namespace BTDevice

/-- `send`. -/
def send (i : Nat) (data : List UInt8) (cid : UInt16) (s : Stack) : Stack :=
  match s.devices[i]? with
  | none => s
  | some d => s.hciWrite (l2capData (UInt16.ofInt d.handle ||| 0x2000) cid data)

/-- `l2cap`. -/
def l2cap (i : Nat) (cmd id : UInt8) (params : List UInt16) (s : Stack) : Stack :=
  send i (l2capCmd cmd id params) 1 s

/-- A request under the next `_txid`. -/
def request (i : Nat) (cmd : UInt8) (params : List UInt16) (s : Stack) : Stack :=
  match s.devices[i]? with
  | none => s
  | some d => l2cap i cmd d.txid params (s.modifyDevice i fun d => { d with txid := d.txid + 1 })

/-- `connect`. -/
def connect (i : Nat) (psm scid : UInt16) : Stack → Stack := request i l2capConnReq [psm, scid]

/-- `disconnect`. -/
def disconnect (i : Nat) (scid dcid : UInt16) : Stack → Stack :=
  request i l2capDisconnReq [dcid, scid]

/-- `configure_request`. -/
def configureRequest (i : Nat) (dcid : UInt16) : Stack → Stack :=
  request i l2capConfReq [dcid, 0, 0x0201, 0xFFFF]

/-- `configure_response`. -/
def configureResponse (i : Nat) (rxid : UInt8) (dcid mtu : UInt16) : Stack → Stack :=
  l2cap i l2capConfRsp rxid [dcid, 0, 0, 0x0201, mtu]

end BTDevice

namespace HCI

/-- `HCI::l2_send`. -/
def l2Send (scid : Int) (data : List UInt8) (s : Stack) : Stack :=
  match s.getSocket scid with
  | none => s
  | some (i, sock) => BTDevice.send i data sock.dcid s

/-- `HCI::l2_recv`: the packet that is copied out and its length, or the
length alone when it is not positive. -/
def l2Recv (scid : Int) (len : Nat) (s : Stack) : Stack × Option Packet :=
  match s.getSocket scid with
  | none => (s, none)
  | some (i, sock) =>
      match sock.q.read with
      | none => (s, some [])
      | some (d, q) => (s.modifySocket i scid fun sock => { sock with q := q }, some (d.take len))

end HCI

/-! ## socket states -/

namespace SDPParse

/-- `_sdp_hid_inquiry`: search for service 1124, all attributes. -/
def sdpHidInquiry : List UInt8 :=
  [0x06, 0x00, 0x01, 0x00, 0x0F, 0x35, 0x03, 0x19, 0x11, 0x24, 0xFF, 0xFF,
    0x35, 0x05, 0x0A, 0x00, 0x00, 0xFF, 0xFF]

/-- The request that asks for the part after `cont`. -/
def searchRequest (cont : List UInt8) : List UInt8 :=
  sdpHidInquiry.set 4 (0x0F + UInt8.ofNat cont.length) ++ UInt8.ofNat cont.length :: cont

/-- `service_search`.  The buffer has room for 16 bytes of continuation. -/
def serviceSearch (sock : Int) (cont : List UInt8) (s : Stack) : Option Stack :=
  if cont.length ≤ 16 then some (HCI.l2Send sock (searchRequest cont) s) else none

/-- An `SDPParse`. -/
def new (sock : Int) : SDPParse where
  sdpSock := sock
  currentId := 0
  buf := []
  srvName := []
  srvDesc := []
  providerName := []
  hidDescriptor := []

end SDPParse

namespace InputDevice

/-- `start_sdp`; the first request has no continuation. -/
def startSdp (j : Nat) (s : Stack) : Stack :=
  match s.inputs[j]? with
  | none => s
  | some d =>
      let s := s.modifyInput j fun d => { d with sdpHandler := some (SDPParse.new d.sdp) }
      if d.sdp ≠ 0 then HCI.l2Send d.sdp (SDPParse.searchRequest []) s else s

/-- `socket_changed`. -/
def socketChanged (j : Nat) (socket : Int) (state : L2capState) (s : Stack) : Stack :=
  match s.inputs[j]? with
  | none => s
  | some d => if socket = d.sdp ∧ state = .opened then startSdp j s else s

end InputDevice

namespace L2CAPSocket

/-- `hci_socket_change`, as `HIDSource::cb` handles it. -/
def hciSocketChange (addr : Bdaddr) (scid : Int) (state : L2capState) (s : Stack) : Stack :=
  match s.getInput addr with
  | none => s
  | some j => InputDevice.socketChanged j scid state s

/-- `set_state`, on the socket `scid` of the device at `i`. -/
def setState (i : Nat) (scid : Int) (state : L2capState) (s : Stack) : Stack :=
  match s.devices[i]?, (s.devices[i]?).bind fun d => d.getSocket scid with
  | some d, some sock =>
      hciSocketChange d.addr sock.scid.toNat state
        (s.modifySocket i scid fun sock => { sock with state := state })
  | _, _ => s

end L2CAPSocket

/-! ## opening and closing -/

namespace BTDevice

/-- `BTDevice::l2_open`. -/
def l2Open (i : Nat) (scid : Int) (psm : UInt16) (listen : Bool) (s : Stack) : Stack :=
  let scid16 := UInt16.ofInt scid
  let sock : L2CAPSocket := ⟨.none, psm, scid16, 0, PacketQ.empty⟩
  let s := s.modifyDevice i fun d => { d with sockets := insertSocket scid sock d.sockets }
  if listen then L2CAPSocket.setState i scid .listening s
  else L2CAPSocket.setState i scid .opening (connect i psm scid16 s)

/-- `BTDevice::l2_close`. -/
def l2Close (i : Nat) (scid : Int) (thisEnd : Bool) (s : Stack) : Stack :=
  match (s.devices[i]?).bind fun d => d.getSocket scid with
  | none => s
  | some sock =>
      let s :=
        if thisEnd ∧ sock.state = .opened then disconnect i sock.scid sock.dcid s else s
      s.modifyDevice i fun d => { d with sockets := d.sockets.filter fun p => p.1 ≠ scid }

/-- `disconnect_all`: the destructor of each socket tells its state. -/
def disconnectAll (i : Nat) (s : Stack) : Stack :=
  match s.devices[i]? with
  | none => s
  | some d =>
      let s := d.sockets.foldl (fun s p => L2CAPSocket.setState i p.1 .deleted s) s
      s.modifyDevice i fun d => { d with sockets := [], handle := -1, flags := slave }

end BTDevice

namespace HCI

/-- `HCI::l2_open`: the new socket, or -1. -/
def l2Open (addr : Bdaddr) (psm : UInt16) (listen : Bool) (s : Stack) : Stack × Int :=
  match s.getDevice addr with
  | none => (s, -1)
  | some i => (BTDevice.l2Open i s.cid psm listen { s with cid := s.cid + 1 }, s.cid)

/-- `HCI::l2_close`. -/
def l2Close (scid : Int) (s : Stack) : Stack :=
  match s.getDeviceBySocket scid with
  | none => s
  | some i => BTDevice.l2Close i scid true s

end HCI

end HidServer
end M5Z80
