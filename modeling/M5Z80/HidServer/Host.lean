import M5Z80.HidServer.LinkKey
import M5Z80.HidServer.Sdp

/-!
# M5Z80.HidServer.Host

The upper half of the host stack: inbound L2CAP packets, HCI commands and
events, the input devices that `HIDSource` makes of them, and the Wii
controllers.
-/

namespace M5Z80
namespace HidServer

/-! ## inbound packets -/

/-- A `u16` of a packed structure. -/
def u16At (data : List UInt8) (k : Nat) : Option UInt16 := do
  let lo ← data[k]?
  let hi ← data[k + 1]?
  return lo.toUInt16 ||| hi.toUInt16 <<< 8

/-- `n` bytes of a packed structure. -/
def bytesAt (data : List UInt8) (k n : Nat) : Option (Vector UInt8 n) :=
  let bytes := (data.drop k).take n
  if h : bytes.length = n then some ⟨bytes.toArray, by simpa using h⟩ else none

/-- A `bdaddr_t`. -/
def bdaddrAt (data : List UInt8) (k : Nat) : Option Bdaddr := bytesAt data k 6

/-- `params[k]` of an `l2cap_cmd`. -/
def param (pkt : Packet) (k : Nat) : Option UInt16 := u16At pkt (4 + 2 * k)

/-- `M(cmd)`, the bit that marks a command as seen. -/
def commandBit (cmd : UInt8) : UInt32 := 1 <<< (cmd.toUInt32 + 8)

namespace BTDevice

/-- `check_open`, for a socket that is there. -/
def checkOpen (i : Nat) (scid : Int) (s : Stack) : Stack :=
  match s.devices[i]? with
  | none => s
  | some d =>
      let mask := commandBit l2capConnRsp ||| commandBit l2capConfReq ||| commandBit l2capConfRsp
      if d.flags &&& commandBit l2capConnReq = 0 then
        if mask &&& d.flags = mask then L2CAPSocket.setState i scid .opened s else s
      else s

/-- The answer to a `CONN_REQ` of one of the sockets of its `psm`. -/
def acceptSocket (i : Nat) (rxid : UInt8) (dcid : UInt16) (s : Stack)
    (p : Int × L2CAPSocket) : Stack :=
  let s := l2cap i l2capConnRsp rxid [p.2.scid, dcid, 0, 0] s
  let s := L2CAPSocket.setState i p.1 .opening s
  let s := s.modifySocket i p.1 fun sock => { sock with dcid := dcid }
  let s := s.modifyDevice i fun d => { d with txid := rxid + 1 }
  configureRequest i dcid s

/-- The `switch` of `control` over the command.  Nothing answers the commands
it has no case for. -/
def command (i : Nat) (cmd : UInt8) (pkt : Packet) (s : Stack) : Option Stack := do
  let d ← s.devices[i]?
  if cmd = l2capConnRsp then
    let status ← param pkt 2
    let scid ← param pkt 1
    match d.getSocket scid.toNat with
    | none => return s
    | some _ =>
        if status = 0 then
          let dcid ← param pkt 0
          return configureRequest i dcid
            (s.modifySocket i scid.toNat fun sock => { sock with dcid := dcid })
        else if status ≠ 1 then return L2CAPSocket.setState i scid.toNat .closed s
        else return s
  else if cmd = l2capConfRsp then
    let scid ← param pkt 0
    match d.getSocket scid.toNat with
    | none => return s
    | some _ => return checkOpen i scid.toNat s
  else if cmd = l2capConfReq then
    let scid ← param pkt 0
    match d.getSocket scid.toNat with
    | none => return s
    | some sock =>
        let id ← pkt[1]?
        let mtu ← param pkt 3
        return checkOpen i scid.toNat (configureResponse i id sock.dcid mtu s)
  else if cmd = l2capDisconnReq then
    let scid ← param pkt 0
    let dcid ← param pkt 1
    let id ← pkt[1]?
    return l2cap i l2capDisconnRsp id [dcid, scid] (l2Close i scid.toNat false s)
  else if cmd = l2capDisconnRsp then
    let scid ← param pkt 1
    return HCI.l2Close scid.toNat s
  else if cmd = l2capConnReq then
    let dcid ← param pkt 1
    let psm ← param pkt 0
    let rxid ← pkt[1]?
    let s := s.modifyDevice i fun d => { d with flags := d.flags ||| active }
    return (d.sockets.filter fun p => p.2.psm = psm).foldl (acceptSocket i rxid dcid) s
  else if cmd = l2capInfoReq then
    let type ← param pkt 0
    let id ← pkt[1]?
    return l2cap i l2capInfoRsp id [type, 1] s
  else return s

/-- `control`.  Commands from 24 on have no bit in `_flags`. -/
def control (i : Nat) (pkt : Packet) (s : Stack) : Option Stack := do
  let cmd ← pkt[0]?
  if cmd < 24 then
    command i cmd pkt (s.modifyDevice i fun d =>
      { d with txid := d.txid + 1, flags := d.flags ||| commandBit cmd })
  else none

/-- `_packet.resize(n)`. -/
def resize (n : Nat) (packet : Packet) : Packet :=
  packet.take n ++ List.replicate (n - packet.length) 0

/-- `memcpy(&_packet[_packet_pos],data,len)` and `_packet_pos += len`, inside
both. -/
def copyIn (data : List UInt8) (len : Nat) (d : BTDevice) : Option BTDevice :=
  if len ≤ data.length ∧ d.packetPos + len ≤ d.packet.length then
    some { d with
      packet := d.packet.take d.packetPos ++ data.take len ++ d.packet.drop (d.packetPos + len)
      packetPos := d.packetPos + len }
  else none

/-- `data`, up to the test that the packet is assembled. -/
def assemble (p : Packet) (d : BTDevice) : Option BTDevice := do
  let handle ← u16At p 1
  let length ← u16At p 3
  if handle >>> 12 = 2 then
    let l2capLength ← u16At p 5
    let cid ← u16At p 7
    if length < 4 then none
    else
      copyIn (p.drop 9) (length.toNat - 4)
        { d with packet := resize l2capLength.toNat d.packet, packetCid := cid }
  else copyIn (p.drop 5) length.toNat d

/-- Forwards an assembled packet. -/
def forward (i : Nat) (d : BTDevice) (s : Stack) : Option Stack :=
  if d.packetCid = 1 then control i d.packet s
  else
    match d.getSocket d.packetCid.toNat with
    | none => some s
    | some _ => some (s.modifySocket i d.packetCid.toNat fun sock =>
        { sock with q := (sock.q.write d.packet).2 })

/-- `data`. -/
def data (i : Nat) (p : Packet) (s : Stack) : Option Stack := do
  let d ← s.devices[i]?
  let d ← assemble p d
  let s := s.modifyDevice i fun _ => d
  if d.packetPos = d.packet.length then
    let s ← forward i d s
    return s.modifyDevice i fun d => { d with packetPos := 0 }
  else return s

end BTDevice

/-! ## HCI commands -/

def hciReadBufferSize : UInt16 := 0x1005
def hciReadBdAddr : UInt16 := 0x1009
def hciReset : UInt16 := 0x0C03
def hciWriteClassOfDevice : UInt16 := 0x0C24
def hciWriteScanEnable : UInt16 := 0x0C1A
def hciWriteAuthEnable : UInt16 := 0x0C20
def hciRoleDiscovery : UInt16 := 0x0809
def hciWriteLinkPolicy : UInt16 := 0x080D
def hciInquiry : UInt16 := 0x0401
def hciCreateConnection : UInt16 := 0x0405
def hciAcceptConnectionRequest : UInt16 := 0x0409
def hciLinkKeyRequestReply : UInt16 := 0x040B
def hciLinkKeyRequestNegReply : UInt16 := 0x040C
def hciPinCodeRequestReply : UInt16 := 0x040D
def hciAuthenticationRequested : UInt16 := 0x0411
def hciRemoteNameRequest : UInt16 := 0x0419

/-- A command packet. -/
def hciCommand (c : UInt16) (data : List UInt8) : Packet :=
  0x01 :: (le16 c ++ UInt8.ofNat data.length :: data)

/-- `MASK_INQUIRY` and the other bits of `_state`. -/
def maskReset : UInt32 := 1
def maskReadBufferSize : UInt32 := 2
def maskReadBdAddr : UInt32 := 4
def maskInited : UInt32 := 8
def maskInquiry : UInt32 := 16

namespace HCI

/-- `cmd`. -/
def cmd (c : UInt16) (data : List UInt8) (s : Stack) : Stack := s.hciWrite (hciCommand c data)

/-- `ready_to_send`. -/
def readyToSend (s : Stack) : Stack :=
  if s.hciState = 0xFFFFFFFF then { cmd hciReset [] s with hciState := 0 } else s

/-- `start_inquiry`, and `inquiry` with its access code. -/
def startInquiry (secs : UInt8) (s : Stack) : Stack :=
  if s.hciState &&& maskInquiry ≠ 0 then s
  else cmd hciInquiry [0x33, 0x8B, 0x9E, secs, 0] { s with hciState := s.hciState ||| maskInquiry }

/-- `HCI::add_device`. -/
def addDevice (addr : Bdaddr) (s : Stack) : Stack :=
  match s.getDevice addr with
  | some _ => s
  | none => { s with devices := s.devices ++ [BTDevice.new addr] }

/-- `remote_name_request`. -/
def remoteNameRequest (addr : Bdaddr) (s : Stack) : Stack :=
  cmd hciRemoteNameRequest (addr.toList ++ [0, 1, 0, 0]) s

/-- `authentication_requested`. -/
def authenticationRequested (addr : Bdaddr) (s : Stack) : Stack :=
  match (s.getDevice addr).bind fun i => s.devices[i]? with
  | none => s
  | some d =>
      if d.handle ≠ -1 then cmd hciAuthenticationRequested (le16 (UInt16.ofInt d.handle)) s else s

/-- `accept_connection_request`. -/
def acceptConnectionRequest (addr : Bdaddr) (s : Stack) : Stack :=
  cmd hciAcceptConnectionRequest (addr.toList ++ [0]) s

/-- `create_connection`. -/
def createConnection (i : Nat) (s : Stack) : Stack :=
  match s.devices[i]? with
  | none => s
  | some d =>
      if d.handle ≠ -1 then s
      else cmd hciCreateConnection (d.addr.toList ++ [0x18, 0xCC, 1, 0, 0, 0, 0])
        (s.modifyDevice i fun d => { d with flags := 0, handle := 0 })

/-- `HCI::connect`. -/
def connect (addr : Bdaddr) (s : Stack) : Stack :=
  match s.getDevice addr with
  | none => s
  | some i => createConnection i s

end HCI

/-! ## input devices -/

/-- The PSMs of a HID device. -/
def hidSdpPsm : UInt16 := 0x0001
def hidControlPsm : UInt16 := 0x0011
def hidInterruptPsm : UInt16 := 0x0013

/-- `(dev_class[0] << 16) | (dev_class[1] << 8) | dev_class[2]`. -/
def devClassOf (devClass : Vector UInt8 3) : Nat :=
  devClass[0].toNat <<< 16 ||| devClass[1].toNat <<< 8 ||| devClass[2].toNat

/-- `is_input_device`. -/
def isInputDevice (devClass : Vector UInt8 3) : Bool :=
  let dc := devClassOf devClass
  let major := dc >>> 8 &&& 0x1F
  let minor := dc >>> 16 >>> 2
  (major = 5 ∧ (minor &&& 15 ∈ [1, 2, 3] ∨ minor &&& 0x30 ∈ [0x10, 0x20, 0x30])) ∨ dc = 0

namespace InputDevice

/-- An input device from `add_device`. -/
def new (addr : Bdaddr) (devClass : Vector UInt8 3) : InputDevice where
  state := .closed
  bdaddr := addr
  devClass := devClassOf devClass
  name := []
  sdpHandler := none
  hidDescriptor := []
  reconnect := false
  sdp := 0
  control := 0
  interrupt := 0
  wiiIndex := none

/-- `connect`. -/
def connect (j : Nat) (s : Stack) : Stack :=
  match s.inputs[j]? with
  | none => s
  | some d =>
      HCI.connect d.bdaddr
        (s.modifyInput j fun d => { d with reconnect := false, state := .connect })

/-- `connection_request`. -/
def connectionRequest (j : Nat) (s : Stack) : Stack :=
  match s.inputs[j]? with
  | none => s
  | some d =>
      HCI.acceptConnectionRequest d.bdaddr (s.modifyInput j fun d => { d with reconnect := true })

/-- Opens the two channels of a HID device. -/
def openChannels (j : Nat) (addr : Bdaddr) (listen : Bool) (s : Stack) : Stack :=
  let (s, control) := HCI.l2Open addr hidControlPsm listen s
  let s := s.modifyInput j fun d => { d with control := control }
  let (s, interrupt) := HCI.l2Open addr hidInterruptPsm listen s
  s.modifyInput j fun d => { d with interrupt := interrupt }

/-- `connection_complete`. -/
def connectionComplete (j : Nat) (s : Stack) : Stack :=
  match s.inputs[j]? with
  | none => s
  | some d =>
      let s := if d.reconnect then openChannels j d.bdaddr true s else s
      (HCI.remoteNameRequest d.bdaddr s).modifyInput j fun d => { d with state := .readingName }

/-- `remote_name_response`. -/
def remoteNameResponse (j : Nat) (name : List UInt8) (s : Stack) : Option Stack := do
  let d ← s.inputs[j]?
  let s := s.modifyInput j fun d => { d with name := name }
  if d.reconnect then return s.modifyInput j fun d => { d with state := .opening }
  else
    match ← s.readLinkKey d.bdaddr with
    | (s, some _) =>
        return (HCI.authenticationRequested d.bdaddr s).modifyInput j fun d =>
          { d with state := .authenticating }
    | (s, none) =>
        let (s, sdp) := HCI.l2Open d.bdaddr hidSdpPsm false s
        return s.modifyInput j fun d => { d with sdp := sdp, state := .readingSdp }

/-- `authentication_complete`; the status is only printed. -/
def authenticationComplete (j : Nat) (s : Stack) : Stack :=
  match s.inputs[j]? with
  | none => s
  | some d => if d.reconnect then s else openChannels j d.bdaddr false s

/-- `disconnection_complete`; `_sdp` keeps its number. -/
def disconnectionComplete (j : Nat) (s : Stack) : Stack :=
  match s.inputs[j]? with
  | none => s
  | some d =>
      let s := HCI.l2Close d.interrupt (HCI.l2Close d.control (HCI.l2Close d.sdp s))
      let s := match d.wiiIndex with
        | none => s
        | some k => { s with wii := s.wii.set k { s.wii.get k with flags := 0 } k.isLt }
      s.modifyInput j fun d =>
        { d with
          reconnect := false
          interrupt := 0
          control := 0
          state := .closed
          wiiIndex := none }

/-- `update_sdp`. -/
def updateSdp (j : Nat) (s : Stack) : Option Stack := do
  let d ← s.inputs[j]?
  match d.sdpHandler with
  | none => return s
  | some p =>
      let (last, p, s) ← p.update s
      if last then
        let p ← p.parse
        let s := s.modifyInput j fun d =>
          { d with hidDescriptor := p.hidDescriptor, sdpHandler := none }
        let s := HCI.l2Close d.sdp s
        let s := s.modifyInput j fun d => { d with sdp := 0 }
        return (HCI.authenticationRequested d.bdaddr s).modifyInput j fun d =>
          { d with state := .authenticating }
      else return s.modifyInput j fun d => { d with sdpHandler := some p }

end InputDevice

/-! ## callbacks -/

namespace HIDSource

/-- `HIDSource::add_device`: the device, if it is one for input. -/
def addDevice (addr : Bdaddr) (devClass : Vector UInt8 3) (s : Stack) : Stack × Option Nat :=
  if isInputDevice devClass then
    match s.getInput addr with
    | some j => (s, some j)
    | none =>
        ({ s with inputs := s.inputs ++ [InputDevice.new addr devClass] }, some s.inputs.length)
  else (s, none)

/-- `CALLBACK_INQUIRY_DONE`. -/
def inquiryDone (s : Stack) : Stack :=
  (List.range s.inputs.length).foldl (fun s j => InputDevice.connect j s) s

/-- `CALLBACK_CONNECTION_REQUEST`. -/
def connectionRequest (addr : Bdaddr) (devClass : Vector UInt8 3) (s : Stack) : Stack :=
  match addDevice addr devClass s with
  | (s, none) => s
  | (s, some j) => InputDevice.connectionRequest j s

/-- The callbacks that look their device up and hand it the event. -/
def withInput (addr : Bdaddr) (f : Nat → Stack → Stack) (s : Stack) : Stack :=
  match s.getInput addr with
  | none => s
  | some j => f j s

/-- `CALLBACK_REMOTE_NAME`. -/
def remoteName (addr : Bdaddr) (name : List UInt8) (s : Stack) : Option Stack :=
  match s.getInput addr with
  | none => some s
  | some j => InputDevice.remoteNameResponse j name s

end HIDSource

end HidServer
end M5Z80
