import M5Z80.HidServer.Stack

/-!
# M5Z80.HidServer.LinkKey

The link keys of `hci_server.cpp`, kept in flash as strings of hexadecimal digits
under the digits of the address.  A call of the flash that fails leaves it as it
was, and a key that cannot be read counts as none.
-/

namespace M5Z80
namespace HidServer

/-- The digits of `%02X`, and of `nybble`. -/
def hexDigits : List UInt8 :=
  [0x30, 0x31, 0x32, 0x33, 0x34, 0x35, 0x36, 0x37, 0x38, 0x39, 0x41, 0x42, 0x43, 0x44, 0x45, 0x46]

/-- The digit of a value below 16. -/
def hexDigit (v : UInt8) : UInt8 := hexDigits.getD v.toNat 0

/-- `to_hex`. -/
def toHex (src : List UInt8) : List UInt8 :=
  src.flatMap fun b : UInt8 => [hexDigit (b >>> 4), hexDigit (b &&& 15)]

/-- `toupper`. -/
def toUpper (c : UInt8) : UInt8 := if 0x61 ≤ c ∧ c ≤ 0x7A then c - 0x20 else c

/-- `nybble`: the position that `strchr` finds, that of the end for 0. -/
def nybble (c : UInt8) : Option UInt8 :=
  if toUpper c = 0 then some 16 else (hexDigits.idxOf? (toUpper c)).map UInt8.ofNat

/-- `from_hex`, of `len` bytes; the buffer it reads is filled up with zeros. -/
def fromHex : Nat → List UInt8 → Option (List UInt8)
  | 0, _ => some []
  | len + 1, src => do
      let hi ← nybble (src.getD 0 0)
      let lo ← nybble (src.getD 1 0)
      let rest ← fromHex len (src.drop 2)
      return (hi <<< 4 ||| lo) :: rest

namespace Nvs

/-- The call of `nvs_open` under way gives a handle. -/
def handle (f : Nvs) : Bool := f.opens f.calls

/-- `nvs_get_str`, with room for `maxLen` characters, the last of them 0: a string
that does not fit is not read. -/
def getStr (key : List UInt8) (maxLen : Nat) (f : Nvs) : Option (List UInt8) :=
  if f.gets f.calls then (f.strings key).filter fun value => value.length < maxLen else none

/-- `nvs_set_str`. -/
def setStr (key value : List UInt8) (f : Nvs) : Nvs :=
  if f.sets f.calls then
    { f with
      strings := fun k => if k = key then some value else f.strings k
      written := f.written ++ [(key, value)] }
  else f

/-- The call is over. -/
def next (f : Nvs) : Nvs := { f with calls := f.calls + 1 }

end Nvs

/-- `sys_get_pref`. -/
def Stack.sysGetPref (key : List UInt8) (maxLen : Nat) (s : Stack) : Stack × Option (List UInt8) :=
  ({ s with nvs := s.nvs.next }, if s.nvs.handle then s.nvs.getStr key maxLen else none)

/-- `sys_set_pref`. -/
def Stack.sysSetPref (key value : List UInt8) (s : Stack) : Stack :=
  { s with nvs := if s.nvs.handle then (s.nvs.setStr key value).next else s.nvs.next }

/-- `read_link_key`: `none` is undefined, and no key is -1. -/
def Stack.readLinkKey (addr : Bdaddr) (s : Stack) : Option (Stack × Option (List UInt8)) :=
  match s.sysGetPref (toHex addr.toList) 63 with
  | (s, none) => some (s, none)
  | (s, some value) => (fromHex 16 value).map fun key => (s, some key)

/-- `write_link_key`. -/
def Stack.writeLinkKey (addr : Bdaddr) (key : Vector UInt8 16) (s : Stack) : Stack :=
  s.sysSetPref (toHex addr.toList) (toHex key.toList)

end HidServer
end M5Z80
