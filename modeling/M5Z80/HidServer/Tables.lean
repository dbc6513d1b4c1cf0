import Mathlib.Data.List.Nodup
import M5Z80.HidServer.Changes

/-!
# M5Z80.HidServer.Tables

Invariants of the tables of the host stack, over every run: a device and an
input device is in its table once, every input device has its device, a
socket id names one socket, and no two devices share a Wii slot.
-/

namespace M5Z80
namespace HidServer

/-! ## devices and sockets -/

/-- The ids of all sockets. -/
def Stack.ids (s : Stack) : List (Int × UInt16) := s.devices.flatMap BTDevice.ids

/-- The tables are in order. -/
structure Stack.Tables (s : Stack) : Prop where
  devices : (s.devices.map fun d => d.addr).Nodup
  inputs : (s.inputs.map fun d => d.bdaddr).Nodup
  known : (s.inputs.map fun d => d.bdaddr) ⊆ s.devices.map fun d => d.addr
  sockets : (s.ids.map Prod.fst).Nodup
  range : ∀ p ∈ s.ids, 0x40 ≤ p.1 ∧ p.1 < s.cid ∧ p.2 = UInt16.ofInt p.1
  cid : 0x40 ≤ s.cid

/-- The ids are those from before and the new one. -/
theorem ids_insertSocket {scid : Int} (sock : L2CAPSocket) {sockets : List (Int × L2CAPSocket)}
    (h : ∀ p ∈ sockets, p.1 ≠ scid) :
    (insertSocket scid sock sockets).Perm ((scid, sock) :: sockets) := by
  induction sockets with
  | nil => exact .refl _
  | cons p rest ih =>
      obtain ⟨hp, hrest⟩ := List.forall_mem_cons.mp h
      rw [insertSocket, if_neg (Ne.symm hp)]
      split
      · exact .refl _
      · exact ((ih hrest).cons p).trans (.swap _ _ _)

/-- A device is not found exactly if its address is not in the table. -/
theorem getDevice_eq_none_iff (addr : Bdaddr) (s : Stack) :
    s.getDevice addr = none ↔ addr ∉ s.devices.map fun d => d.addr := by
  rw [getDevice_eq, List.findIdx?_eq_none_iff]
  constructor
  · intro h hmem
    simpa using h addr hmem
  · intro h a ha
    exact decide_eq_false fun heq => h (heq ▸ ha)

/-- The same for the input devices. -/
theorem getInput_eq_none_iff (addr : Bdaddr) (s : Stack) :
    s.getInput addr = none ↔ addr ∉ s.inputs.map fun d => d.bdaddr := by
  rw [Stack.getInput, List.findIdx?_eq_none_iff, List.mem_map]
  constructor
  · rintro h ⟨d, hd, rfl⟩
    simpa using h d hd
  · intro h d hd
    exact decide_eq_false fun heq => h ⟨d, hd, heq⟩

/-- A list of distinct addresses with a new one. -/
theorem nodup_concat {α : Type} {l : List α} {a : α} (h : l.Nodup) (ha : a ∉ l) :
    (l ++ [a]).Nodup := by
  refine List.nodup_append.mpr ⟨h, List.nodup_singleton a, fun b hb c hc => ?_⟩
  rw [List.mem_singleton.mp hc]
  exact fun heq => ha (heq ▸ hb)

/-- Only the addresses of the input devices matter. -/
theorem Stack.Tables.congr {s s' : Stack} (ht : s.Tables) (devices : s'.devices = s.devices)
    (cid : s'.cid = s.cid)
    (inputs : (s'.inputs.map fun d => d.bdaddr) = s.inputs.map fun d => d.bdaddr) : s'.Tables := by
  have hids : s'.ids = s.ids := by rw [Stack.ids, Stack.ids, devices]
  exact
    { devices := devices ▸ ht.devices
      inputs := inputs ▸ ht.inputs
      known := by
        rw [inputs, devices]
        exact ht.known
      sockets := hids ▸ ht.sockets
      range := by
        rw [hids, cid]
        exact ht.range
      cid := cid ▸ ht.cid }

/-- A change of an input device that keeps its address keeps the tables. -/
theorem Stack.Tables.modifyInput {s t : Stack} (ht : s.Tables) {j : Nat}
    {f : InputDevice → InputDevice} (hdevices : t.devices = s.devices) (hcid : t.cid = s.cid)
    (hinputs : t.inputs = s.inputs)
    (keeps : ∀ d, s.inputs[j]? = some d → (f d).bdaddr = d.bdaddr) :
    (t.modifyInput j f).Tables := by
  refine ht.congr hdevices hcid ?_
  change (t.inputs.modify j f).map _ = _
  rw [hinputs]
  exact Modify.map_modify _ _ _ keeps

/-- A new socket takes the next id. -/
theorem Stack.Tables.socket {s : Stack} (ht : s.Tables) {i : Nat} {sock : L2CAPSocket}
    (scid : sock.scid = UInt16.ofInt s.cid) :
    (Stack.modifyDevice i (fun d => { d with sockets := insertSocket s.cid sock d.sockets })
      { s with cid := s.cid + 1 }).Tables := by
  obtain ⟨f, hf⟩ : ∃ f : BTDevice → BTDevice,
      f = fun d => { d with sockets := insertSocket s.cid sock d.sockets } := ⟨_, rfl⟩
  rw [← hf]
  have haddr : (s.devices.modify i f).map (fun d => d.addr) = s.devices.map fun d => d.addr :=
    Modify.map_modify _ _ _ fun d _ => by rw [hf]
  have hfresh : ∀ p ∈ s.ids, p.1 ≠ s.cid := fun p hp => (ht.range p hp).2.1.ne
  have hids : (s.devices.modify i f).flatMap BTDevice.ids = s.ids ∨
      ((s.devices.modify i f).flatMap BTDevice.ids).Perm ((s.cid, sock.scid) :: s.ids) := by
    cases hd : s.devices[i]? with
    | none =>
        left
        rw [List.modify_eq_self (List.getElem?_eq_none_iff.mp hd), Stack.ids]
    | some d =>
        right
        refine Modify.flatMap_modify_perm _ hd ?_
        have hmem : ∀ p ∈ d.sockets, p.1 ≠ s.cid := fun p hp =>
          hfresh (p.1, p.2.scid) (List.mem_flatMap.mpr
            ⟨d, List.mem_of_getElem? hd, List.mem_map_of_mem hp⟩)
        rw [hf, BTDevice.ids]
        exact (ids_insertSocket sock hmem).map fun p : Int × L2CAPSocket => (p.1, p.2.scid)
  have hrange : ∀ p ∈ s.ids, 0x40 ≤ p.1 ∧ p.1 < s.cid + 1 ∧ p.2 = UInt16.ofInt p.1 := by
    intro p hp
    obtain ⟨hle, hlt, hscid⟩ := ht.range p hp
    exact ⟨hle, by omega, hscid⟩
  have hcid := ht.cid
  rcases hids with hids | hids
  · exact
      { devices := haddr ▸ ht.devices
        inputs := ht.inputs
        known := haddr ▸ ht.known
        sockets := (congrArg (fun l => (l.map Prod.fst).Nodup) hids).mpr ht.sockets
        range := fun p hp => hrange p ((congrArg (fun l => p ∈ l) hids).mp hp)
        cid := by
          change 0x40 ≤ s.cid + 1
          omega }
  · refine
      { devices := haddr ▸ ht.devices
        inputs := ht.inputs
        known := haddr ▸ ht.known
        sockets := ((hids.map Prod.fst).nodup_iff).mpr (List.nodup_cons.mpr ⟨?_, ht.sockets⟩)
        range := fun p hp => ?_
        cid := by
          change 0x40 ≤ s.cid + 1
          omega }
    · intro hmem
      obtain ⟨p, hp, heq⟩ := List.mem_map.mp hmem
      exact hfresh p hp heq
    · rcases List.mem_cons.mp (hids.mem_iff.mp hp) with rfl | hp'
      · exact ⟨hcid, Int.lt_succ _, scid⟩
      · exact hrange p hp'

/-- Every change keeps the tables in order. -/
theorem Change.tables {s s' : Stack} (h : Change s s') (ht : s.Tables) : s'.Tables := by
  cases h with
  | rest devices cid inputs wii rx nvs => exact ht.congr devices cid (by rw [inputs])
  | @device i f keeps =>
      have haddr : (s.devices.modify i f).map (fun d => d.addr) = s.devices.map fun d => d.addr :=
        Modify.map_modify _ _ _ fun d hd => (keeps d hd).1
      have hids : (s.modifyDevice i f).ids.Sublist s.ids :=
        Modify.flatMap_modify_sublist _ _ _ fun d hd => (keeps d hd).2.1
      exact
        { devices := haddr ▸ ht.devices
          inputs := ht.inputs
          known := haddr ▸ ht.known
          sockets := (hids.map Prod.fst).nodup ht.sockets
          range := fun p hp => ht.range p (hids.subset hp)
          cid := ht.cid }
  | socket scid => exact ht.socket scid
  | @addDevice addr isNew =>
      have hids : Stack.ids { s with devices := s.devices ++ [BTDevice.new addr] } = s.ids := by
        rw [Stack.ids, List.flatMap_append]
        exact List.append_nil _
      refine ⟨?_, ht.inputs, fun a ha => ?_, hids ▸ ht.sockets, hids ▸ ht.range, ht.cid⟩
      · rw [List.map_append]
        exact nodup_concat ht.devices ((getDevice_eq_none_iff addr s).mp isNew)
      · rw [List.map_append]
        exact List.mem_append_left _ (ht.known ha)
  | input keeps => exact ht.modifyInput rfl rfl rfl fun d hd => (keeps d hd).1
  | @addInput addr devClass isNew known =>
      have haddr : addr ∈ s.devices.map fun d => d.addr := by
        by_contra hnot
        obtain ⟨i, hi⟩ := known
        rw [(getDevice_eq_none_iff addr s).mpr hnot] at hi
        cases hi
      refine ⟨ht.devices, ?_, fun a ha => ?_, ht.sockets, ht.range, ht.cid⟩
      · rw [List.map_append]
        exact nodup_concat ht.inputs ((getInput_eq_none_iff addr s).mp isNew)
      · rw [List.map_append] at ha
        rcases List.mem_append.mp ha with hold | hnew
        · exact ht.known hold
        · rwa [List.mem_singleton.mp hnew]
  | takeSlot input none free => exact ht.modifyInput rfl rfl rfl fun _ _ => rfl
  | freeSlot input taken keeps =>
      refine ht.modifyInput rfl rfl rfl fun d hd => ?_
      rw [← Option.some.inj (input.symm.trans hd)]
      exact keeps.1
  | slotFlags input taken keeps => exact ht.congr rfl rfl rfl

/-! ## packets -/

/-- Every device writes inside its packet. -/
def Stack.InPackets (s : Stack) : Prop := ∀ d ∈ s.devices, d.InPacket

/-- A change of a device that stays inside its packet. -/
theorem inPackets_modifyDevice {s : Stack} (hs : s.InPackets) {i : Nat}
    {f : BTDevice → BTDevice} (hf : ∀ d, s.devices[i]? = some d → d.InPacket → (f d).InPacket) :
    (s.modifyDevice i f).InPackets := by
  intro d hd
  obtain ⟨k, hk⟩ := List.mem_iff_getElem?.mp hd
  rw [Stack.modifyDevice, List.getElem?_modify] at hk
  obtain ⟨e, he, rfl⟩ := Option.map_eq_some_iff.mp hk
  have hin := hs e (List.mem_of_getElem? he)
  split
  next heq =>
    subst heq
    exact hf e he hin
  · exact hin

/-- No change of the tables leaves a packet. -/
theorem Change.inPackets {s s' : Stack} (h : Change s s') (hs : s.InPackets) : s'.InPackets := by
  cases h with
  | rest devices cid inputs wii rx nvs =>
      intro d hd
      rw [devices] at hd
      exact hs d hd
  | device keeps => exact inPackets_modifyDevice hs fun d hd => (keeps d hd).2.2
  | socket scid => exact inPackets_modifyDevice (s := { s with cid := s.cid + 1 }) hs fun _ _ => id
  | addDevice isNew =>
      intro d hd
      rcases List.mem_append.mp hd with hold | hnew
      · exact hs d hold
      · rw [List.mem_singleton.mp hnew]
        exact Nat.zero_le _
  | _ => exact hs

/-! ## Wii slots -/

/-- A slot is free and no device has it, or one device has it and its flags
say so. -/
def Stack.SlotOk (s : Stack) (k : Fin wiiSlots) : Prop :=
  s.inputs.countP (fun d => d.wiiIndex = some k) = 0 ∧ (s.wii.get k).flags = 0 ∨
    s.inputs.countP (fun d => d.wiiIndex = some k) = 1 ∧
      (s.wii.get k).flags &&& WII.wiimote = WII.wiimote

/-- Flags are changed in one slot only. -/
theorem flags_modifyFlags (k k' : Fin wiiSlots) (f : UInt32 → UInt32) (s : Stack) :
    ((WII.modifyFlags k f s).wii.get k').flags =
      if k = k' then f (s.wii.get k).flags else (s.wii.get k').flags := by
  simp only [WII.modifyFlags, Modify.get_set]
  split <;> rfl

theorem wii_modifyInput (j : Nat) (f : InputDevice → InputDevice) (s : Stack) :
    (s.modifyInput j f).wii = s.wii := rfl

/-- How many input devices have a slot, when one of them is changed. -/
theorem countP_modifyInput {s t : Stack} {j : Nat} {d : InputDevice}
    {f : InputDevice → InputDevice} (hinputs : t.inputs = s.inputs) (hd : s.inputs[j]? = some d)
    (k : Fin wiiSlots) :
    (t.modifyInput j f).inputs.countP (fun d => d.wiiIndex = some k) +
        (decide (d.wiiIndex = some k)).toNat =
      s.inputs.countP (fun d => d.wiiIndex = some k) +
        (decide ((f d).wiiIndex = some k)).toNat := by
  change (t.inputs.modify j f).countP _ + _ = _
  rw [hinputs]
  exact Modify.countP_modify _ hd

/-- A slot that a device owns is owned. -/
theorem countP_pos {s : Stack} {j : Nat} {d : InputDevice} {k : Fin wiiSlots}
    (hd : s.inputs[j]? = some d) (hk : d.wiiIndex = some k) :
    0 < s.inputs.countP fun d => d.wiiIndex = some k :=
  List.countP_pos_iff.mpr ⟨d, List.mem_of_getElem? hd, decide_eq_true hk⟩

/-- Every change keeps the slots in order. -/
theorem Change.slotOk {s s' : Stack} (h : Change s s') {k : Fin wiiSlots} (hk : s.SlotOk k) :
    s'.SlotOk k := by
  cases h with
  | rest devices cid inputs wii rx nvs =>
      rw [Stack.SlotOk, inputs, wii]
      exact hk
  | device keeps => exact hk
  | socket scid => exact hk
  | addDevice isNew => exact hk
  | @input j f keeps =>
      cases hd : s.inputs[j]? with
      | none =>
          rw [Stack.modifyInput, List.modify_eq_self (List.getElem?_eq_none_iff.mp hd)]
          exact hk
      | some d =>
          have hcount := countP_modifyInput (f := f) (t := s) rfl hd k
          rw [(keeps d hd).2, Nat.add_right_cancel_iff] at hcount
          rw [Stack.SlotOk, hcount]
          exact hk
  | @addInput addr devClass isNew known =>
      have hcount : (s.inputs ++ [InputDevice.new addr devClass]).countP
          (fun d => d.wiiIndex = some k) = s.inputs.countP fun d => d.wiiIndex = some k :=
        List.countP_append
      rw [Stack.SlotOk, hcount]
      exact hk
  | @takeSlot j d k' input none free =>
      have hcount := countP_modifyInput (s := s) (f := fun d => { d with wiiIndex := some k' })
        (t := WII.modifyFlags k' (fun _ => WII.wiimote) s) rfl input k
      rw [none] at hcount
      rw [Stack.SlotOk, wii_modifyInput, flags_modifyFlags]
      by_cases hkk : k' = k
      · subst hkk
        rw [if_pos rfl]
        rcases hk with ⟨hzero, -⟩ | ⟨-, hflags⟩
        · refine .inr ⟨?_, by decide⟩
          simp only [hzero, decide_true, Bool.toNat_true, reduceCtorEq, decide_false,
            Bool.toNat_false] at hcount
          omega
        · rw [free] at hflags
          exact absurd hflags (by decide)
      · rw [if_neg hkk]
        simp only [Option.some.injEq, hkk, reduceCtorEq, decide_false, Bool.toNat_false] at hcount
        rw [Nat.add_zero] at hcount
        rw [hcount]
        exact hk
  | @freeSlot j d k' f input taken keeps =>
      have hcount := countP_modifyInput (s := s) (f := f)
        (t := WII.modifyFlags k' (fun _ => 0) s) rfl input k
      have hpos := countP_pos input taken
      rw [taken, keeps.2] at hcount
      rw [Stack.SlotOk, wii_modifyInput, flags_modifyFlags]
      by_cases hkk : k' = k
      · subst hkk
        rw [if_pos rfl]
        refine .inl ⟨?_, rfl⟩
        simp only [decide_true, Bool.toNat_true, reduceCtorEq, decide_false,
          Bool.toNat_false] at hcount
        rcases hk with ⟨hzero, -⟩ | ⟨hone, -⟩ <;> omega
      · rw [if_neg hkk]
        simp only [Option.some.injEq, hkk, reduceCtorEq, decide_false, Bool.toNat_false] at hcount
        rw [Nat.add_zero] at hcount
        rw [hcount]
        exact hk
  | @slotFlags j d k' f input taken keeps =>
      rw [Stack.SlotOk, flags_modifyFlags]
      by_cases hkk : k' = k
      · subst hkk
        have hpos := countP_pos input taken
        rw [if_pos rfl, keeps]
        rcases hk with ⟨hzero, -⟩ | hused
        · omega
        · exact .inr hused
      · rw [if_neg hkk]
        exact hk

/-! ## runs -/

/-- A move keeps the tables consistent. -/
theorem Move.tables {s s' : Stack} (h : Move s s') (ht : s.Tables) : s'.Tables := by
  cases h with
  | change h => exact h.tables ht
  | receive q => exact ht.congr rfl rfl rfl
  | key addr key => exact ht.congr rfl rfl rfl

/-- A move keeps every position inside its packet. -/
theorem Move.inPackets {s s' : Stack} (h : Move s s') (hs : s.InPackets) : s'.InPackets := by
  cases h with
  | change h => exact h.inPackets hs
  | receive q => exact hs
  | key addr key => exact hs

/-- A move keeps every slot free and unowned, or used and owned by one. -/
theorem Move.slotOk {s s' : Stack} (h : Move s s') {k : Fin wiiSlots} (hk : s.SlotOk k) :
    s'.SlotOk k := by
  cases h with
  | change h => exact h.slotOk hk
  | receive q => exact hk
  | key addr key => exact hk

/-- At first the tables are empty. -/
theorem tables_init (nvs : Nvs) : (Stack.init nvs).Tables where
  devices := List.nodup_nil
  inputs := List.nodup_nil
  known := List.nil_subset _
  sockets := List.nodup_nil
  range := fun _ h => absurd h List.not_mem_nil
  cid := le_rfl

/-- At first every slot is clear. -/
theorem slotOk_init (nvs : Nvs) (k : Fin wiiSlots) :
    (Stack.init nvs).SlotOk k := by
  refine .inl ⟨rfl, ?_⟩
  exact congrArg WiiState.flags (Vector.getElem_replicate k.isLt)

/-- In every run the position stays inside the packet. -/
theorem inPackets_run (nvs : Nvs) {ops : List Op} {s : Stack}
    (hrun : run ops (Stack.init nvs) = some s) : s.InPackets :=
  run_invariant (fun _ _ => Move.inPackets) hrun fun _ h => absurd h List.not_mem_nil

/-- In every run the tables stay in order: whatever the controller sends, in
whatever order, an address is in each table once, every input device has its
Bluetooth device, and the ids of open sockets are distinct and have all been
handed out. -/
theorem tables_run (nvs : Nvs) {ops : List Op} {s : Stack}
    (hrun : run ops (Stack.init nvs) = some s) : s.Tables :=
  run_invariant (fun _ _ => Move.tables) hrun (tables_init nvs)

/-- A keyboard that connects by itself. -/
def reconnect : List Op :=
  [.readyToSend, .packet [0x04, 0x04, 0x0A, 1, 2, 3, 4, 5, 6, 0x40, 0x05, 0x00, 0x01],
    .packet [0x04, 0x03, 0x0B, 0x00, 0x40, 0x00, 1, 2, 3, 4, 5, 6, 0x01, 0x00], .update 4]

/-- A keyboard connects by itself: its device and input device are there once each. -/
theorem tables_run_reconnect :
    ∃ s, run reconnect (Stack.init (.working fun _ => none)) = some s ∧ s.Tables := by
  have hsome : (run reconnect (Stack.init (.working fun _ => none))).isSome = true := by decide +kernel
  obtain ⟨s, hs⟩ := Option.isSome_iff_exists.mp hsome
  exact ⟨s, hs, tables_run _ hs⟩

/-- In every run a Wii slot belongs to no device and is clear, or belongs to
exactly one device and is marked as used. -/
theorem slots_run (nvs : Nvs) {ops : List Op} {s : Stack}
    (hrun : run ops (Stack.init nvs) = some s) (k : Fin wiiSlots) : s.SlotOk k :=
  run_invariant (fun _ _ h => h.slotOk) hrun (slotOk_init nvs k)

/-- A Wii controller that connects and reports its buttons. -/
def wiiReport : List Op :=
  [.packet [0x04, 0x04, 0x0A, 1, 2, 3, 4, 5, 6, 0x04, 0x25, 0x00, 0x01],
    .packet [0x04, 0x03, 0x0B, 0x00, 0x40, 0x00, 1, 2, 3, 4, 5, 6, 0x01, 0x00],
    .packet [0x02, 0x40, 0x20, 0x08, 0x00, 0x04, 0x00, 0x41, 0x00, 0xA1, 0x30, 0x00, 0x08],
    .update 4, .get (List.replicate 64 0)]

/-- A Wii controller has taken the first slot. -/
theorem slots_run_wiiReport :
    ∃ s, run wiiReport (Stack.init (.working fun _ => none)) = some s ∧ (s.wii.get 0).flags ≠ 0 ∧
      s.SlotOk 0 := by
  have hsome : (run wiiReport (Stack.init (.working fun _ => none))).any
      (fun s => decide ((s.wii.get 0).flags ≠ 0)) = true := by decide +kernel
  obtain ⟨s, hs, hflags⟩ := (Option.any_eq_true ..).mp hsome
  exact ⟨s, hs, of_decide_eq_true hflags, slots_run _ hs 0⟩

end HidServer
end M5Z80
