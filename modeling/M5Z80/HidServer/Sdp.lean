import M5Z80.HidServer.Stack

/-!
# M5Z80.HidServer.Sdp

`SDPParse` of `hid_server.cpp`: the answers to the service search are
collected over their continuations and then walked for the HID descriptor.
What the walk prints is left out.

The calls `u8() << 8 | u8()` of `u16` are taken from left to right.
-/

namespace M5Z80
namespace HidServer

/-- `SDP_ATTR_ID_SERVICE_NAME`. -/
def sdpAttrIdServiceName : Int := 0x0100

/-- `SDP_ATTR_ID_SERVICE_DESCRIPTION`. -/
def sdpAttrIdServiceDescription : Int := 0x0101

/-- `SDP_ATTR_ID_PROVIDER_NAME`. -/
def sdpAttrIdProviderName : Int := 0x0102

/-- `SDP_ATTR_HID_DESCRIPTOR_LIST`. -/
def sdpAttrHidDescriptorList : Int := 0x0206

namespace SDPParse

/-! ## reading -/

/-- `u8`, with the bytes that follow `_data`. -/
def u8 : List UInt8 → Option (Nat × List UInt8)
  | [] => none
  | b :: rest => some (b.toNat, rest)

/-- `u16`. -/
def u16 (data : List UInt8) : Option (Nat × List UInt8) := do
  let (hi, data) ← u8 data
  let (lo, data) ← u8 data
  return (hi * 256 + lo, data)

/-- `u32`. -/
def u32 (data : List UInt8) : Option (Nat × List UInt8) := do
  let (hi, data) ← u16 data
  let (lo, data) ← u16 data
  return (hi * 65536 + lo, data)

/-- `_data += n`, over bytes that are there. -/
def skip (n : Nat) (data : List UInt8) : Option (List UInt8) :=
  if n ≤ data.length then some (data.drop n) else none

/-- `header`: the type and the length of a data element. -/
def header (data : List UInt8) : Option (Nat × Nat × List UInt8) := do
  let (hdr, data) ← u8 data
  let type := hdr / 8
  let (n, data) ← match hdr % 8 with
    | 5 => u8 data
    | 6 => u16 data
    | 7 => u32 data
    | i => some (2 ^ i, data)
  return (type, if type = 0 then 0 else n, data)

/-- `get_id16`. -/
def getId16 (data : List UInt8) : Option (Int × List UInt8) := do
  let (t, n, data) ← header data
  if t ≠ 1 ∨ n ≠ 2 then return (-1, data)
  let (id, data) ← u16 data
  return (id, data)

/-- `on_string`. -/
def onString (text : List UInt8) (p : SDPParse) : SDPParse :=
  if p.currentId = sdpAttrIdServiceName then { p with srvName := text }
  else if p.currentId = sdpAttrIdServiceDescription then { p with srvDesc := text }
  else if p.currentId = sdpAttrIdProviderName then { p with providerName := text }
  else if p.currentId = sdpAttrHidDescriptorList then { p with hidDescriptor := text }
  else p

/-- The length of a sequence, as the `int` that `item` and `list` take. -/
def seqEnd (n : Nat) (data : List UInt8) : Int := data.length - (UInt32.ofNat n).toInt32.toInt

/-- The value of a data element in `item`, where `nested` walks a sequence.
Integers, UUIDs, URLs and alternatives are only skipped. -/
def element (nested : Int → SDPParse → List UInt8 → Option (Bool × SDPParse × List UInt8))
    (p : SDPParse) (data : List UInt8) : Option (SDPParse × List UInt8) := do
  let (t, n, data) ← header data
  match t with
  | 0 => return (p, data)
  | 4 => (skip n data).map fun rest => (onString (data.take n) p, rest)
  | 5 => (skip 1 data).map fun rest => (p, rest)
  | 6 => (nested (seqEnd n data) p data).map Prod.snd
  | _ => (skip n data).map fun rest => (p, rest)

/-- The loop of `item` up to the `stop`th byte from the end, and whether it
ran to the end. -/
def item : Nat → Bool → Int → SDPParse → List UInt8 → Option (Bool × SDPParse × List UInt8)
  | 0, _, _, _, _ => none
  | fuel + 1, wantId, stop, p, data =>
      if (data.length : Int) ≤ stop then some (true, p, data)
      else do
        let (id, data) ← if wantId then getId16 data else some (p.currentId, data)
        let p := { p with currentId := id }
        if wantId ∧ id = -1 then return (false, p, data)
        let (p, data) ← element (item fuel false) p data
        item fuel wantId stop p data

/-- `list`: the loop over the service records. -/
def list : Nat → Int → SDPParse → List UInt8 → Option (Bool × SDPParse × List UInt8)
  | 0, _, _, _ => none
  | fuel + 1, stop, p, data =>
      if (data.length : Int) ≤ stop then some (true, p, data)
      else do
        let (t, n, data) ← header data
        if t ≠ 6 then return (true, p, data)
        let (ok, p, data) ← item fuel true (seqEnd n data) p data
        if ok then list fuel stop p data else return (false, p, data)

/-- The loop of `parse` over the collected answers. -/
def parseLoop : Nat → SDPParse → List UInt8 → Option SDPParse
  | 0, _, _ => none
  | fuel + 1, p, data =>
      if data = [] then some p
      else do
        let (t, n, data) ← header data
        if t ≠ 6 then return p
        let (ok, p, data) ← list fuel (seqEnd n data) p data
        if ok then parseLoop fuel p data else return p

/-- `parse`. -/
def parse (p : SDPParse) : Option SDPParse := parseLoop (p.buf.length + 1) p p.buf

/-- `add`: whether the answer was the last one. -/
def add (pkt : Packet) (p : SDPParse) (s : Stack) : Option (Bool × SDPParse × Stack) := do
  let (pid, data) ← u8 pkt
  let (_tid, data) ← u16 data
  let (_total, data) ← u16 data
  if pid ≠ 7 then return (false, p, s)
  let (count, data) ← u16 data
  let cont ← skip count data
  let p := { p with buf := p.buf ++ data.take count }
  let (contlen, cont) ← u8 cont
  if contlen = 0 then return (true, p, s)
  else if cont.length < contlen then none
  else (serviceSearch p.sdpSock (cont.take contlen) s).map fun s => (false, p, s)

/-- `update`: reads up to 512 bytes of an answer. -/
def update (p : SDPParse) (s : Stack) : Option (Bool × SDPParse × Stack) :=
  match HCI.l2Recv p.sdpSock 512 s with
  | (s, some (b :: pkt)) => add (b :: pkt) p s
  | (s, _) => some (false, p, s)

end SDPParse

end HidServer
end M5Z80
