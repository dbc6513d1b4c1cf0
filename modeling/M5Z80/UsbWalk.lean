import Mathlib.Tactic.SplitIfs
import M5Z80.Lib.StepLoop

/-!
# M5Z80.UsbWalk

`show_config_desc_full` of `Mzmain.cpp`: the walk over the descriptors that a
USB device sends with its configuration, in search of a boot keyboard.  Memory
is the bytes `val` from the configuration descriptor on, of which the first
`wTotalLength` are the descriptor; the walk keeps a log of what it reads.

The outcome of each call of `usb_host_transfer_alloc` is a parameter.
-/

namespace M5Z80

open StateTransition

/-! ## descriptors -/

/-- `USB_B_DESCRIPTOR_TYPE_INTERFACE`. -/
def usbBDescriptorTypeInterface : UInt8 := 0x04

/-- `USB_B_DESCRIPTOR_TYPE_ENDPOINT`. -/
def usbBDescriptorTypeEndpoint : UInt8 := 0x05

/-- `USB_CLASS_HID`. -/
def usbClassHid : UInt8 := 0x03

/-- `USB_BM_ATTRIBUTES_XFERTYPE_MASK`, which is also the value
`USB_BM_ATTRIBUTES_XFER_INT`. -/
def usbBmAttributesXferInt : UInt8 := 0x03

/-- `USB_B_ENDPOINT_ADDRESS_EP_DIR_MASK`. -/
def usbBEndpointAddressEpDirMask : UInt8 := 0x80

/-- `config_desc->wTotalLength`. -/
def wTotalLength (val : Nat → UInt8) : Nat := (val 2).toNat + 256 * (val 3).toNat

/-! ## the keyboard -/

/-- What `Mzmain.cpp` keeps of a USB keyboard.  `keyboardIn` is the endpoint
address of the transfer that `KeyboardIn` points at, `claimed` are the
interfaces and settings that have been claimed, and `allocs` counts the calls
of `usb_host_transfer_alloc`. -/
structure UsbKeyboard where
  isKeyboard : Bool
  isKeyboardReady : Bool
  keyboardInterval : UInt8
  keyboardIn : Option UInt8
  claimed : List (UInt8 × UInt8)
  allocs : Nat

/-- The walk before the descriptor at `i`. -/
structure UsbWalk extends UsbKeyboard where
  i : Nat
  reads : List Nat
  returned : Bool

namespace UsbWalk

section

variable (val : Nat → UInt8)

/-- A read of the byte at `p`. -/
def read (p : Nat) (w : UsbWalk) : UsbWalk := { w with reads := p :: w.reads }

/-- `check_interface_desc_boot_keyboard`. -/
def checkInterfaceDescBootKeyboard (p : Nat) (w : UsbWalk) : UsbWalk :=
  let w := w.read (p + 5)
  if val (p + 5) = usbClassHid then
    let w := w.read (p + 6)
    if val (p + 6) = 1 then
      let w := w.read (p + 7)
      if val (p + 7) = 1 then
        let w := (w.read (p + 2)).read (p + 3)
        { w with isKeyboard := true, claimed := (val (p + 2), val (p + 3)) :: w.claimed }
      else w
    else w
  else w

/-- `prepare_endpoint`. -/
def prepareEndpoint (allocOk : Nat → Bool) (p : Nat) (w : UsbWalk) : UsbWalk :=
  let w := w.read (p + 3)
  if val (p + 3) &&& usbBmAttributesXferInt ≠ usbBmAttributesXferInt then w
  else
    let w := w.read (p + 2)
    if val (p + 2) &&& usbBEndpointAddressEpDirMask ≠ 0 then
      let ok := allocOk w.allocs
      let w := { w with allocs := w.allocs + 1 }
      if ok then
        let w := w.read (p + 6)
        { w with
          keyboardIn := some (val (p + 2))
          isKeyboardReady := true
          keyboardInterval := val (p + 6) }
      else { w with keyboardIn := none }
    else w

/-- The `switch` over the type of the descriptor at `p`.  The other types are
only logged. -/
def descriptor (allocOk : Nat → Bool) (p : Nat) (w : UsbWalk) : UsbWalk :=
  let bDescriptorType := val (p + 1)
  let w := w.read (p + 1)
  if bDescriptorType = usbBDescriptorTypeInterface then w.checkInterfaceDescBootKeyboard val p
  else if bDescriptorType = usbBDescriptorTypeEndpoint then
    if w.isKeyboard ∧ w.keyboardIn = none then w.prepareEndpoint val allocOk p else w
  else w

/-- The length byte of the descriptor at `w.i`. -/
def bLength (w : UsbWalk) : Nat := (val w.i).toNat

/-- The body of the loop. -/
def body (allocOk : Nat → Bool) (w : UsbWalk) : UsbWalk :=
  let bLength := w.bLength val
  let w := w.read w.i
  if w.i + bLength ≤ wTotalLength val then
    let w := w.descriptor val allocOk w.i
    { w with i := w.i + bLength }
  else { w with returned := true }

/-- One turn of the loop, if there is one. -/
def turn (allocOk : Nat → Bool) (w : UsbWalk) : Option UsbWalk :=
  if w.returned = false ∧ w.i < wTotalLength val then some (w.body val allocOk) else none

/-- The walk when `wTotalLength` has been read. -/
def start (keyboard : UsbKeyboard) : UsbWalk :=
  { keyboard with i := 0, reads := [3, 2], returned := false }

end

end UsbWalk

/-- `show_config_desc_full`. -/
def showConfigDescFull (allocOk : Nat → Bool) (val : Nat → UInt8) (fuel : Nat)
    (keyboard : UsbKeyboard) : Option UsbWalk :=
  StepLoop.run (UsbWalk.turn val allocOk) fuel (UsbWalk.start keyboard)

/-! ## reads -/

/-- Reads of the descriptor. -/
def Inside (val : Nat → UInt8) (reads : List Nat) : Prop := ∀ r ∈ reads, r < wTotalLength val

/-- The bytes that an interface descriptor at `p` is told from a boot keyboard
by are in the descriptor. -/
def InterfaceInside (val : Nat → UInt8) (p : Nat) : Prop :=
  p + 5 < wTotalLength val ∧ (val (p + 5) = usbClassHid →
    p + 6 < wTotalLength val ∧ (val (p + 6) = 1 → p + 7 < wTotalLength val))

/-- The attributes of an endpoint descriptor at `p` are in the descriptor, and
so is the interval of an interrupt IN endpoint that gets a transfer. -/
def EndpointInside (val : Nat → UInt8) (p : Nat) (ok : Bool) : Prop :=
  p + 3 < wTotalLength val ∧
    (val (p + 3) &&& usbBmAttributesXferInt = usbBmAttributesXferInt →
      val (p + 2) &&& usbBEndpointAddressEpDirMask ≠ 0 → ok → p + 6 < wTotalLength val)

/-- What the walk reads of a descriptor at `w.i` that fits is in the
configuration descriptor: its type, and the fields of an interface, or of an
endpoint while a keyboard has no transfer. -/
structure TypeInside (val : Nat → UInt8) (allocOk : Nat → Bool) (w : UsbWalk) : Prop where
  type : w.i + 1 < wTotalLength val
  interface : val (w.i + 1) = usbBDescriptorTypeInterface → InterfaceInside val w.i
  endpoint : val (w.i + 1) = usbBDescriptorTypeEndpoint →
    w.isKeyboard ∧ w.keyboardIn = none → EndpointInside val w.i (allocOk w.allocs)

/-- The walk leaves the descriptor at `w.i` behind and reads what it reads of
it in the configuration descriptor. -/
structure Readable (val : Nat → UInt8) (allocOk : Nat → Bool) (w : UsbWalk) : Prop where
  advances : w.bLength val ≠ 0
  fits : w.i + w.bLength val ≤ wTotalLength val → TypeInside val allocOk w

namespace UsbWalk

variable {val : Nat → UInt8}

/-- A read of the buffer has to be inside it. -/
@[simp] theorem inside_cons {p : Nat} {reads : List Nat} :
    Inside val (p :: reads) ↔ p < wTotalLength val ∧ Inside val reads := List.forall_mem_cons

section

variable (p : Nat) (w : UsbWalk)

@[simp] theorem reads_read : (w.read p).reads = p :: w.reads := rfl

@[simp] theorem allocs_read : (w.read p).allocs = w.allocs := rfl

/-- The class byte comes after the number and the setting. -/
theorem inside_checkInterfaceDescBootKeyboard :
    Inside val (w.checkInterfaceDescBootKeyboard val p).reads ↔
      Inside val w.reads ∧ InterfaceInside val p := by
  simp only [checkInterfaceDescBootKeyboard, InterfaceInside]
  split_ifs with hclass hsub hprotocol
  · simp [hclass, hsub]
    grind
  · simp [hclass, hsub]
    grind
  · simp [hclass, hsub]
    grind
  · simp [hclass, and_comm]

/-- The attributes come after the address. -/
theorem inside_prepareEndpoint (allocOk : Nat → Bool) :
    Inside val (w.prepareEndpoint val allocOk p).reads ↔
      Inside val w.reads ∧ EndpointInside val p (allocOk w.allocs) := by
  simp only [prepareEndpoint, EndpointInside, allocs_read]
  split_ifs with hattributes haddress hok
  · simp [hattributes, and_comm]
  · simp [not_ne_iff.mp hattributes, haddress, hok]
    grind
  · simp [hok]
    grind
  · simp [not_ne_iff.mp haddress]
    grind

variable {w} in
/-- Of a descriptor that is only logged the type is read. -/
theorem inside_read_type_iff (allocOk : Nat → Bool)
    (hinterface : val (w.i + 1) ≠ usbBDescriptorTypeInterface)
    (hendpoint : val (w.i + 1) = usbBDescriptorTypeEndpoint →
      ¬ (w.isKeyboard ∧ w.keyboardIn = none)) :
    Inside val (w.read (w.i + 1)).reads ↔ Inside val w.reads ∧ TypeInside val allocOk w := by
  rw [reads_read, inside_cons]
  constructor
  · rintro ⟨htype, hreads⟩
    exact ⟨hreads, htype, fun h => absurd h hinterface, fun h hkeyboard =>
      absurd hkeyboard (hendpoint h)⟩
  · rintro ⟨hreads, hinside⟩
    exact ⟨hinside.type, hreads⟩

variable (val) in
/-- What a descriptor that fits lets the walk read. -/
theorem inside_descriptor (allocOk : Nat → Bool) :
    Inside val (w.descriptor val allocOk w.i).reads ↔
      Inside val w.reads ∧ TypeInside val allocOk w := by
  have htypes : usbBDescriptorTypeInterface ≠ usbBDescriptorTypeEndpoint := by decide
  simp only [descriptor]
  split_ifs with hinterface hendpoint hkeyboard
  · rw [inside_checkInterfaceDescBootKeyboard, reads_read, inside_cons]
    constructor
    · rintro ⟨⟨htype, hreads⟩, hinside⟩
      refine ⟨hreads, htype, fun _ => hinside, fun hendpoint => ?_⟩
      exact absurd (hinterface.symm.trans hendpoint) htypes
    · rintro ⟨hreads, hinside⟩
      exact ⟨⟨hinside.type, hreads⟩, hinside.interface hinterface⟩
  · rw [inside_prepareEndpoint, reads_read, inside_cons, allocs_read]
    constructor
    · rintro ⟨⟨htype, hreads⟩, hinside⟩
      exact ⟨hreads, htype, fun h => absurd h hinterface, fun _ _ => hinside⟩
    · rintro ⟨hreads, hinside⟩
      exact ⟨⟨hinside.type, hreads⟩, hinside.endpoint hendpoint hkeyboard⟩
  · exact inside_read_type_iff allocOk hinterface fun _ => hkeyboard
  · exact inside_read_type_iff allocOk hinterface fun h => absurd h hendpoint

variable (val) in
/-- A descriptor is taken where the walk is. -/
theorem position_descriptor (allocOk : Nat → Bool) :
    (w.descriptor val allocOk p).i = w.i ∧
      (w.descriptor val allocOk p).returned = w.returned := by
  simp only [descriptor, checkInterfaceDescBootKeyboard, prepareEndpoint]
  split_ifs <;> exact ⟨rfl, rfl⟩

end

/-! ## turns -/

section

variable {allocOk : Nat → Bool}

variable (val allocOk) in
/-- The body of the loop goes to the next descriptor, or returns where the
descriptor does not fit. -/
theorem body_cases (w : UsbWalk) :
    (w.i + w.bLength val ≤ wTotalLength val ∧
        (w.body val allocOk).i = w.i + w.bLength val ∧
        (w.body val allocOk).returned = w.returned) ∨
      (wTotalLength val < w.i + w.bLength val ∧ (w.body val allocOk).returned = true) := by
  obtain ⟨hi, hreturned⟩ := position_descriptor val w.i (w.read w.i) allocOk
  simp only [body]
  split_ifs with hfits
  · exact .inl ⟨hfits, congrArg (· + w.bLength val) hi, hreturned⟩
  · exact .inr ⟨Nat.lt_of_not_le hfits, rfl⟩

/-- A read does not change what the type demands. -/
theorem typeInside_read (p : Nat) (w : UsbWalk) :
    TypeInside val allocOk (w.read p) ↔ TypeInside val allocOk w :=
  ⟨fun h => ⟨h.type, h.interface, h.endpoint⟩, fun h => ⟨h.type, h.interface, h.endpoint⟩⟩

/-- A turn reads inside if the length byte is inside and, for a descriptor that is, the type
demands no more. -/
theorem inside_body (w : UsbWalk) :
    Inside val (w.body val allocOk).reads ↔
      (w.i < wTotalLength val ∧ Inside val w.reads) ∧
        (w.i + w.bLength val ≤ wTotalLength val → TypeInside val allocOk w) := by
  simp only [body]
  split_ifs with hfits
  · have hfits' : w.i + w.bLength val ≤ wTotalLength val := hfits
    have hdescriptor := inside_descriptor val (w.read w.i) allocOk
    rw [reads_read, inside_cons, typeInside_read] at hdescriptor
    simpa [hfits'] using hdescriptor
  · have hfits' : ¬ w.i + w.bLength val ≤ wTotalLength val := hfits
    simp [hfits']

/-- A turn is made while the walk is inside and has not returned. -/
theorem turn_eq_some_iff {w v : UsbWalk} : w.turn val allocOk = some v ↔
    (w.returned = false ∧ w.i < wTotalLength val) ∧ w.body val allocOk = v := by
  simp [turn]

/-- A walk that reads inside has read inside all along. -/
theorem inside_of_reaches {w t : UsbWalk} (h : Reaches (turn val allocOk) w t)
    (ht : Inside val t.reads) : Inside val w.reads := by
  induction h using Relation.ReflTransGen.head_induction_on with
  | refl => exact ht
  | head hv _ ih =>
      obtain ⟨-, rfl⟩ := turn_eq_some_iff.mp hv
      exact (inside_body _).mp ih |>.1.2

/-- A descriptor without a length is never left. -/
theorem turn_of_bLength_eq_zero {w : UsbWalk} (hlength : w.bLength val = 0)
    (hi : w.i < wTotalLength val) (u : UsbWalk) (hu : u.i = w.i ∧ u.returned = false) :
    ∃ v, u.turn val allocOk = some v ∧ v.i = w.i ∧ v.returned = false := by
  have hlength' : u.bLength val = 0 := by rw [bLength, hu.1, ← hlength, bLength]
  refine ⟨_, turn_eq_some_iff.mpr ⟨⟨hu.2, hu.1 ▸ hi⟩, rfl⟩, ?_⟩
  obtain ⟨-, hnext, hreturned⟩ | ⟨hfits, -⟩ := body_cases val allocOk u
  · exact ⟨by omega, hreturned.trans hu.2⟩
  · omega

/-- A walk with a result that reads inside has left each descriptor behind and
read it inside. -/
theorem readable_of_result {s t w : UsbWalk} (ht : Reaches (turn val allocOk) s t)
    (hlast : t.turn val allocOk = none) (hinside : Inside val t.reads)
    (hw : Reaches (turn val allocOk) s w) (hreturned : w.returned = false)
    (hi : w.i < wTotalLength val) : Readable val allocOk w := by
  have hturn : w.turn val allocOk = some (w.body val allocOk) :=
    turn_eq_some_iff.mpr ⟨⟨hreturned, hi⟩, rfl⟩
  refine ⟨fun hlength => ?_, ?_⟩
  · exact StepLoop.not_endless (turn_of_bLength_eq_zero hlength hi) ht hlast hw ⟨rfl, hreturned⟩
  · have hbody := StepLoop.reaches_result ht hlast (hw.tail hturn)
    exact ((inside_body w).mp (inside_of_reaches hbody hinside)).2

/-- A walk that leaves each descriptor behind ends. -/
theorem ends_of_advances {s : UsbWalk}
    (h : ∀ w, Reaches (turn val allocOk) s w → w.returned = false → w.i < wTotalLength val →
      w.bLength val ≠ 0) : ∃ fuel t, StepLoop.run (turn val allocOk) fuel s = some t := by
  refine StepLoop.ends_of_measure
    (fun w => if w.returned then 0 else wTotalLength val - w.i + 1) fun w v hw hv => ?_
  obtain ⟨⟨hreturned, hi⟩, rfl⟩ := turn_eq_some_iff.mp hv
  have hlength := h w hw hreturned hi
  obtain ⟨hfits, hnext, hnot⟩ | ⟨-, hnext⟩ := body_cases val allocOk w
  · rw [hreturned] at hnot
    have hless : wTotalLength val - (w.body val allocOk).i < wTotalLength val - w.i := by omega
    simpa [hnot, hreturned] using hless
  · simp [hnext, hreturned]

end

end UsbWalk

/-- `show_config_desc_full` ends, and reads only the configuration descriptor,
exactly when `wTotalLength` is in it, each descriptor that the walk comes to
has a length other than 0, and the fields that it reads of a descriptor that
fits, as its length byte has it, are inside. -/
theorem showConfigDescFull_iff (allocOk : Nat → Bool) (val : Nat → UInt8)
    (keyboard : UsbKeyboard) :
    (∃ fuel w, (∀ fuel' ≥ fuel, showConfigDescFull allocOk val fuel' keyboard = some w) ∧
        Inside val w.reads) ↔
      4 ≤ wTotalLength val ∧ ∀ w, Reaches (UsbWalk.turn val allocOk) (.start keyboard) w →
        w.returned = false → w.i < wTotalLength val → Readable val allocOk w := by
  constructor
  · rintro ⟨fuel, t, hrun, hinside⟩
    obtain ⟨ht, hlast⟩ := StepLoop.reaches_of_run (hrun fuel (Nat.le_refl fuel))
    refine ⟨?_, fun w hw => UsbWalk.readable_of_result ht hlast hinside hw⟩
    exact UsbWalk.inside_of_reaches ht hinside 3 List.mem_cons_self
  · rintro ⟨hlength, hreadable⟩
    obtain ⟨fuel, t, hrun⟩ := UsbWalk.ends_of_advances fun w hw hreturned hi =>
      (hreadable w hw hreturned hi).advances
    refine ⟨fuel, t, fun fuel' hfuel => StepLoop.run_of_le hrun hfuel, ?_⟩
    refine StepLoop.invariant (P := fun w => Inside val w.reads) (StepLoop.reaches_of_run hrun).1
      (fun w v hw hv h => ?_) (by simp [UsbWalk.start, Inside]; omega)
    obtain ⟨⟨hreturned, hi⟩, rfl⟩ := UsbWalk.turn_eq_some_iff.mp hv
    exact (UsbWalk.inside_body w).mpr ⟨⟨hi, h⟩, (hreadable w hw hreturned hi).fits⟩

/-- `Mzmain.cpp` before the first device. -/
def noKeyboard : UsbKeyboard where
  isKeyboard := false
  isKeyboardReady := false
  keyboardInterval := 0
  keyboardIn := none
  claimed := []
  allocs := 0

/-- The configuration of a boot keyboard: an interface, its HID descriptor and
an interrupt IN endpoint that is polled every 10 ms. -/
def bootKeyboard (p : Nat) : UInt8 :=
  [9, 2, 34, 0, 1, 1, 0, 0xA0, 50, 9, 4, 0, 0, 1, 3, 1, 1, 0, 9, 0x21, 0x11, 1, 0, 1, 0x22, 65, 0,
    7, 5, 0x81, 3, 8, 0, 10].getD p 0

example : (showConfigDescFull (fun _ => true) bootKeyboard 5 noKeyboard).map
    (fun w => (w.keyboardIn, w.keyboardInterval, w.i)) = some (some 0x81, 10, 34) := by decide

/-- A configuration of 10 bytes of which the last one is the length 0. -/
def zeroLength (p : Nat) : UInt8 := [9, 2, 10, 0, 1, 1, 0, 0x80, 50, 0].getD p 0

/-- The walk does not get past the last byte. -/
theorem not_ends_zeroLength : ¬ ∃ fuel w,
    showConfigDescFull (fun _ => true) zeroLength fuel noKeyboard = some w ∧
      Inside zeroLength w.reads := by
  rintro ⟨fuel, t, hrun, -⟩
  obtain ⟨ht, hlast⟩ := StepLoop.reaches_of_run hrun
  have hturn : (UsbWalk.start noKeyboard).turn zeroLength (fun _ => true) =
      some ((UsbWalk.start noKeyboard).body zeroLength fun _ => true) := rfl
  exact StepLoop.not_endless (UsbWalk.turn_of_bLength_eq_zero rfl (by decide)) ht hlast
    (.single hturn) ⟨rfl, rfl⟩

end M5Z80
