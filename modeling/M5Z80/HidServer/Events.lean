import M5Z80.HidServer.Host

/-!
# M5Z80.HidServer.Events

What drives the host stack: the packets of the controller, through `update`,
and the emulator's `get`.  The steps of the whole stack are `Op`.
-/

namespace M5Z80
namespace HidServer

/-! ## Wii controllers -/

namespace WII

/-- `wii_flags`. -/
def wiimote : UInt32 := 0x01
def nunchuk : UInt32 := 0x02
def classicController : UInt32 := 0x04
def drumsGuitar : UInt32 := 0x08
def extensionRead : UInt32 := 0x100
def encryptionDisabled : UInt32 := 0x200

/-- `led`. -/
def led (sock : Int) (id : UInt8) (s : Stack) : Stack :=
  HCI.l2Send sock [0xA2, 0x15, id] (HCI.l2Send sock [0xA2, 0x11, id] s)

/-- `read_mem`. -/
def readMem (sock : Int) (addr : UInt32) (size : UInt16) (s : Stack) : Stack :=
  HCI.l2Send sock [0xA2, 0x17, 0x04, (addr >>> 16).toUInt8, (addr >>> 8).toUInt8, addr.toUInt8,
    (size >>> 8).toUInt8, size.toUInt8] s

/-- `write_mem`, of one byte. -/
def writeMem (sock : Int) (addr : UInt32) (b : UInt8) (s : Stack) : Stack :=
  HCI.l2Send sock (0xA2 :: 0x16 :: 0x04 :: (addr >>> 16).toUInt8 :: (addr >>> 8).toUInt8 ::
    addr.toUInt8 :: 1 :: b :: List.replicate 15 0) s

/-- `select_input_report`. -/
def selectInputReport (sock : Int) (s : Stack) : Stack := HCI.l2Send sock [0xA2, 0x12, 0x00, 0x32] s

/-- `is_wii`: the name begins with "Nintendo", or one of two classes. -/
def isWii (d : InputDevice) : Bool :=
  [0x4E, 0x69, 0x6E, 0x74, 0x65, 0x6E, 0x64, 0x6F].isPrefixOf d.name ∨
    d.devClass = 0x042500 ∨ d.devClass = 0x080500

/-- Changes the flags of a slot. -/
def modifyFlags (k : Fin wiiSlots) (f : UInt32 → UInt32) (s : Stack) : Stack :=
  { s with wii := s.wii.set k { s.wii.get k with flags := f (s.wii.get k).flags } k.isLt }

/-- `find_slot`: the slot of a device, which takes the first free one. -/
def findSlot (j : Nat) (d : InputDevice) (s : Stack) : Stack × Option (Fin wiiSlots) :=
  match d.wiiIndex with
  | some k => (s, some k)
  | none =>
      match (List.finRange wiiSlots).find? fun k => (s.wii.get k).flags = 0 with
      | none => (s, none)
      | some k =>
          let s := modifyFlags k (fun _ => wiimote) s
          let s := s.modifyInput j fun d => { d with wiiIndex := some k }
          (led d.interrupt (0x10 <<< UInt8.ofNat k.val) s, some k)

/-- The flag of an extension, from its id. -/
def extensionFlags (id : UInt16) : UInt32 :=
  if id = 0x0000 then nunchuk
  else if id = 0x0101 then classicController
  else if id = 0x0103 then drumsGuitar
  else 0

/-- The `switch` of `hid` over a report in `data`, of `len` bytes. -/
def report (k : Fin wiiSlots) (interrupt : Int) (data : List UInt8) (len : Nat) (s : Stack) :
    Option Stack := do
  let type ← data[1]?
  if type = 0x20 then
    let stat ← data[4]?
    let _bat ← data[7]?
    if stat &&& 2 ≠ 0 then return writeMem interrupt 0xA400F0 0x55 s
    else return modifyFlags k (fun flags => flags &&& ~~~0xE) (selectInputReport interrupt s)
  else if type = 0x21 then
    let hi ← data[11]?
    let lo ← data[12]?
    let flags := extensionFlags (hi.toUInt16 <<< 8 ||| lo.toUInt16)
    return selectInputReport interrupt (modifyFlags k (fun f => f &&& ~~~0xE ||| flags) s)
  else if type = 0x22 then
    if (s.wii.get k).flags &&& extensionRead = 0 then
      return modifyFlags k (fun f => f ||| extensionRead) (readMem interrupt 0xA400FA 6 s)
    else if (s.wii.get k).flags &&& encryptionDisabled = 0 then
      return modifyFlags k (fun f => f ||| encryptionDisabled) (writeMem interrupt 0xA400FB 0 s)
    else return s
  else if type = 0x30 then return selectInputReport interrupt s
  else if type = 0x32 ∨ type = 0x37 then
    let bytes := data.take (min 32 len)
    let report := Vector.ofFn fun i : Fin 32 => bytes.getD i.val ((s.wii.get k).report.get i)
    return { s with wii := s.wii.set k { s.wii.get k with report := report } k.isLt }
  else return s

/-- `WII::hid`. -/
def hid (j : Nat) (data : List UInt8) (len : Nat) (s : Stack) : Option Stack :=
  match s.inputs[j]? with
  | none => some s
  | some d =>
      if isWii d then
        match findSlot j d s with
        | (s, none) => some s
        | (s, some k) => report k d.interrupt data len s
      else some s

end WII

/-! ## events -/

/-- A string up to its zero, which has to be there. -/
def cString (data : List UInt8) : Option (List UInt8) :=
  if 0 ∈ data then some (data.takeWhile fun b => b ≠ 0) else none

namespace HCI

/-- `acl`: a packet without a device is kept in `_dongle_bug`. -/
def acl (pkt : Packet) (s : Stack) : Option Stack := do
  let handle ← u16At pkt 1
  match s.getDeviceByHandle (handle &&& 0x0FFF).toNat with
  | some i => BTDevice.data i pkt s
  | none => return { s with dongleBug := pkt }

/-- `dongle_bug`. -/
def dongleBug (s : Stack) : Option Stack :=
  if s.dongleBug = [] then some s
  else (acl s.dongleBug s).map fun s => { s with dongleBug := [] }

/-- `connection_complete`, with the callback. -/
def connectionComplete (status : UInt8) (handle : UInt16) (addr : Bdaddr) (s : Stack) : Stack :=
  match s.getDevice addr with
  | none => s
  | some i =>
      if status = 0 then
        let s := s.modifyDevice i fun d => { d with handle := handle.toNat }
        (HIDSource.withInput addr InputDevice.connectionComplete s).modifyDevice i
          (BTDevice.setRole 0)
      else s.modifyDevice i fun d => { d with handle := -1 }

/-- The devices of a `HCI_INQUIRY_RESULT_EVT`, from the `k`th byte on. -/
def inquiryResults (data : List UInt8) : Nat → Nat → Stack → Option Stack
  | 0, _, s => some s
  | n + 1, k, s => do
      let addr ← bdaddrAt data k
      let devClass ← bytesAt data (k + 9) 3
      inquiryResults data n (k + 14) (HIDSource.addDevice addr devClass (addDevice addr s)).1

/-- `pincode_reply`: the digits "0000". -/
def pincodeReply (addr : Bdaddr) (s : Stack) : Stack :=
  cmd hciPinCodeRequestReply
    (addr.toList ++ [4, 0x30, 0x30, 0x30, 0x30] ++ List.replicate 12 0) s

/-- The cases of `HCI_COMMAND_COMPLETE_EVT`. -/
def commandComplete (c : UInt16) (data : List UInt8) (s : Stack) : Option Stack := do
  if c = hciReset then
    let s := cmd hciReadBufferSize [] s
    return { s with hciState := s.hciState ||| maskReset }
  else if c = hciReadBufferSize then
    let _bufferSize ← bytesAt data 3 8
    let s := cmd hciReadBdAddr [] s
    return { s with hciState := s.hciState ||| maskReadBufferSize }
  else if c = hciReadBdAddr then
    let _localAddr ← bdaddrAt data 4
    let s := { s with hciState := s.hciState ||| maskReadBdAddr }
    return cmd hciWriteScanEnable [3] (cmd hciWriteClassOfDevice [0x07, 0x02, 0x0C] s)
  else if c = hciWriteScanEnable then
    let s := { s with hciState := s.hciState ||| maskInited }
    return cmd hciWriteAuthEnable [0] (startInquiry 5 s)
  else if c = hciWriteLinkPolicy then
    let handle ← u16At data 4
    return cmd hciRoleDiscovery (le16 handle) s
  else if c = hciRoleDiscovery then
    let handle ← u16At data 4
    let role ← data[6]?
    match s.getDeviceByHandle handle.toNat with
    | none => return s
    | some i => return s.modifyDevice i (BTDevice.setRole role)
  else return s

/-- `HCI_LINK_KEY_REQUEST_EVT`. -/
def linkKeyRequest (addr : Bdaddr) (s : Stack) : Option Stack :=
  match s.getDevice addr with
  | none => some s
  | some _ => (s.readLinkKey addr).map fun q =>
      match q with
      | (s, some key) => cmd hciLinkKeyRequestReply (addr.toList ++ key) s
      | (s, none) => cmd hciLinkKeyRequestNegReply addr.toList s

/-- `HCI_DISCONNECTION_COMP_EVT`. -/
def disconnectionComplete (handle : UInt16) (s : Stack) : Stack :=
  match s.getDeviceByHandle handle.toNat with
  | none => s
  | some i =>
      match s.devices[i]? with
      | none => s
      | some d =>
          HIDSource.withInput d.addr InputDevice.disconnectionComplete (BTDevice.disconnectAll i s)

/-- `HCI_CONNECTION_REQUEST_EVT`. -/
def connectionRequest (addr : Bdaddr) (devClass : Vector UInt8 3) (s : Stack) : Stack :=
  let s := addDevice addr s
  let s := match s.getDevice addr with
    | none => s
    | some i => s.modifyDevice i fun d => { d with flags := d.flags ||| slave }
  HIDSource.connectionRequest addr devClass s

/-- `HCI::hci`.  Events without a case are only printed. -/
def hci (evt : UInt8) (data : List UInt8) (s : Stack) : Option Stack := do
  if evt = 0x01 then
    return HIDSource.inquiryDone { s with hciState := s.hciState &&& ~~~maskInquiry }
  else if evt = 0x02 then
    let n ← data[0]?
    inquiryResults data n.toNat 1 s
  else if evt = 0x03 then
    let status ← data[0]?
    let handle ← u16At data 1
    let addr ← bdaddrAt data 3
    dongleBug (connectionComplete status handle addr s)
  else if evt = 0x04 then
    let addr ← bdaddrAt data 0
    let devClass ← bytesAt data 6 3
    return connectionRequest addr devClass s
  else if evt = 0x05 then
    let handle ← u16At data 1
    return disconnectionComplete handle s
  else if evt = 0x06 then
    let _status ← data[0]?
    let handle ← u16At data 1
    match (s.getDeviceByHandle handle.toNat).bind fun i => s.devices[i]? with
    | none => return s
    | some d => return HIDSource.withInput d.addr InputDevice.authenticationComplete s
  else if evt = 0x07 then
    let addr ← bdaddrAt data 1
    if (s.getDevice addr).isNone ∧ (s.getInput addr).isNone then return s
    let name ← cString (data.drop 7)
    HIDSource.remoteName addr name s
  else if evt = 0x0E then
    let c ← u16At data 1
    let _status ← data[3]?
    commandComplete c data s
  else if evt = 0x12 then
    let addr ← bdaddrAt data 1
    match s.getDevice addr with
    | none => return s
    | some i =>
        let role ← data[7]?
        return s.modifyDevice i (BTDevice.setRole role)
  else if evt = 0x16 then
    let addr ← bdaddrAt data 0
    return pincodeReply addr s
  else if evt = 0x17 then
    let addr ← bdaddrAt data 0
    linkKeyRequest addr s
  else if evt = 0x18 then
    let addr ← bdaddrAt data 0
    let key ← bytesAt data 6 16
    return s.writeLinkKey addr key
  else return s

/-! ## update -/

/-- The packets that are sent while the controller is ready, `n` times. -/
def sendPending : Nat → Stack → Stack
  | 0, s => s
  | n + 1, s =>
      match s.tx.read with
      | none => s
      | some (d, q) => sendPending n { s with tx := q, sent := s.sent ++ [d] }

/-- An inbound packet. -/
def inbound (buf : Packet) (s : Stack) : Option Stack := do
  let type ← buf[0]?
  if type = 0x02 then acl buf s
  else if type = 0x04 then
    let evt ← buf[1]?
    let _len ← buf[2]?
    hci evt (buf.drop 3) s
  else return s

/-- The loop over the inbound packets. -/
def receivePending : Nat → Stack → Option Stack
  | 0, _ => none
  | fuel + 1, s =>
      match s.rx.read with
      | none => some s
      | some (d, q) => do
          let s ← inbound d { s with rx := q }
          receivePending fuel s

/-- `update`, when the controller is ready for `n` packets.  At most `QSIZE`
packets wait, and no handler adds one. -/
def update (n : Nat) (s : Stack) : Option Stack := receivePending (qsize + 1) (sendPending n s)

end HCI

/-! ## the emulator's side -/

namespace HIDSource

/-- What the interrupt channel of a device has, as `l2_recv` returns it. -/
def receive (d : InputDevice) (len : Nat) (s : Stack) : Stack × Option Packet :=
  if d.interrupt ≠ 0 then HCI.l2Recv d.interrupt len s else (s, some [])

/-- The search of a device, if one is under way. -/
def pollSdp (j : Nat) (d : InputDevice) (s : Stack) : Option Stack :=
  if d.sdp ≠ 0 then InputDevice.updateSdp j s else some s

/-- The loop of `get` over the devices `js`, with the buffer `dst`. -/
def getFrom (dst : List UInt8) : List Nat → Stack → Option (Stack × List UInt8 × Nat)
  | [], s => some (s, dst, 0)
  | j :: js, s => do
      let d ← s.inputs[j]?
      match receive d dst.length s with
      | (s, some (b :: pkt)) =>
          let dst := b :: pkt ++ dst.drop (pkt.length + 1)
          (WII.hid j dst (pkt.length + 1) s).map fun s => (s, dst, pkt.length + 1)
      | (s, some []) => (pollSdp j d s).bind (getFrom dst js)
      | (s, none) => (pollSdp j d (InputDevice.disconnectionComplete j s)).bind (getFrom dst js)

/-- `get`. -/
def get (dst : List UInt8) (s : Stack) : Option (Stack × List UInt8 × Nat) :=
  getFrom dst (List.range s.inputs.length) s

end HIDSource

/-! ## the stack as a state machine -/

/-- A step of the stack: the controller is ready for the first time, hands
over a packet, or the emulator calls `hid_update` or `hid_get`. -/
inductive Op
  | readyToSend
  | packet (d : Packet)
  | update (n : Nat)
  | get (dst : List UInt8)

/-- The step of an operation; `none` is undefined behaviour. -/
def Op.step : Op → Stack → Option Stack
  | readyToSend, s => some (HCI.readyToSend s)
  | packet d, s => some { s with rx := (s.rx.write d).2 }
  | update n, s => HCI.update n s
  | get dst, s => (HIDSource.get dst s).map Prod.fst

/-- A run of the stack, while it is defined. -/
def run : List Op → Stack → Option Stack
  | [], s => some s
  | op :: ops, s => do
      let s ← op.step s
      run ops s

end HidServer
end M5Z80
