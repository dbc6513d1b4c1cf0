import M5Z80.HidMirror
import M5Z80.HidServer.Connected
import M5Z80.Lib.Mailbox
import M5Z80.System
import M5Z80.TypedStrings

/-!
# M5Z80.HidFrames

The main loop with a Bluetooth keyboard: the guest runs, the stack takes in the
packets that have come, and one report goes to `keyboard`.  Over any number of
frames the key matrix shows the last report that was heard, the reports are heard
in the order they were sent, one a frame, and none is lost while the queues have
room.
-/

namespace M5Z80

open HidServer

/-! ## the guest and the key matrix -/

/-- The guest does not write the key matrix. -/
theorem keepsAll_keyports :
    Cpu.KeepsAll fun m m' => m'.keyports = m.keyports ∧ m'.mzMode = m.mzMode where
  refl _ := ⟨rfl, rfl⟩
  trans h h' := ⟨h'.1.trans h.1, h'.2.trans h.2⟩
  regs _ _ := ⟨rfl, rfl⟩
  budget _ _ := ⟨rfl, rfl⟩
  use _ _ _ := ⟨rfl, rfl⟩
  store m p ofs v := by
    unfold Machine.store
    split <;> exact ⟨rfl, rfl⟩
  mCstate n m :=
    ⟨congrArg Core.keyports (core_mCstate n m), congrArg Core.mzMode (core_mCstate n m)⟩
  mmioIn a m := ⟨congrArg Core.keyports (core_mmioIn a m), congrArg Core.mzMode (core_mmioIn a m)⟩
  mmioOut a v m :=
    ⟨congrArg Core.keyports (core_mmioOut a v m), congrArg Core.mzMode (core_mmioOut a v m)⟩
  z80Out port v m := by
    have hrest := unbanked_z80Out port v m
    have hkeyports := congrArg Machine.keyports hrest
    have hmode := congrArg Machine.mzMode hrest
    exact ⟨hkeyports, hmode⟩
  intflag _ _ := ⟨rfl, rfl⟩
  tick m _ := ⟨congrArg Core.keyports (core_pitCount _), congrArg Core.mzMode (core_pitCount _)⟩

/-! ## the main loop -/

/-- `gui_hid`.  `keyboard` does not look at the length. -/
def guiHid (hid : List UInt8) (k : KeyInput) : Option KeyInput := do
  let type ← hid[0]?
  if type ≠ 0xA1 then return k
  let id ← hid[1]?
  if id = 0x01 then
    let mods ← hid[2]?
    let keyCode ← hid[4]?
    return k.keyboard mods keyCode
  else return k

/-- What happens in a pass of the main loop that opens no menu: how many passes
`Z80_Execute` makes, what `keyCheck` finds, what the controller hands over, how many
packets it is ready for, and what the buffer of the report happens to hold. -/
structure HidFrame where
  passes : Nat
  world : KeyWorld
  arrivals : List Arrival
  ready : Nat
  buf : Vector UInt8 64

namespace HidFrame

/-- `Z80_Execute` and `scrn_draw`. -/
def execute (n : Nat) (k : KeyInput) : KeyInput :=
  { k with machine := scrnDraw (refresh (pass^[n] k.machine)) }

/-- The packets of the controller. -/
def deliver (arrivals : List Arrival) (s : Stack) : Stack :=
  { s with rx := (arrivals.map Prod.fst).foldl (fun q d => (q.write d).2) s.rx }

/-- A pass of the main loop. -/
def step (f : HidFrame) (q : Stack × KeyInput) : Option (Stack × KeyInput) := do
  let k := (execute f.passes q.2).keyCheck f.world
  let s ← HCI.update f.ready (deliver f.arrivals q.1)
  let (s, buf, n) ← HIDSource.get f.buf.toList s
  if 0 < n then (guiHid buf k).map fun k => (s, k) else return (s, k)

/-- A run of the main loop. -/
def run : List HidFrame → Stack × KeyInput → Option (Stack × KeyInput)
  | [], q => some q
  | f :: fs, q => (f.step q).bind (run fs)

end HidFrame

/-! ## the keyboard -/

/-- The modifiers and the first key of a report. -/
def keyReport (p : Packet) : Option (UInt8 × UInt8) := do
  let type ← p[0]?
  let id ← p[1]?
  let mods ← p[2]?
  let keyCode ← p[4]?
  if type = 0xA1 ∧ id = 0x01 then return (mods, keyCode) else none

/-- What `keyboard` makes of a packet. -/
def KeyInput.hear (p : Packet) (k : KeyInput) : KeyInput :=
  (keyReport p).elim k fun r => KeyInput.report r k

/-- A packet that reaches to its first key is read as it was sent. -/
theorem guiHid_take {p : Packet} (hp : 5 ≤ p.length) (rest : List UInt8) (k : KeyInput) :
    guiHid (p.take 64 ++ rest) k = some (k.hear p) := by
  match p, hp with
  | type :: id :: mods :: reserved :: keyCode :: keys, _ =>
      simp only [guiHid, KeyInput.hear, keyReport, List.take_succ_cons, List.cons_append,
        List.getElem?_cons_zero, List.getElem?_cons_succ, Option.bind_eq_bind, Option.bind_some,
        Option.pure_def]
      by_cases htype : type = 0xA1 <;> by_cases hid : id = 0x01 <;>
        simp [htype, hid, KeyInput.report]

namespace KeyInput

variable {k : KeyInput} {r : UInt8 × UInt8}

/-- The key matrix shows a report. -/
structure Shows (k : KeyInput) (r : UInt8 × UInt8) : Prop where
  mirrors : k.Mirrors (shiftPositions k.mode r.1)
  lastKey : k.lastKey = r.2

/-- What is down are the keys and the shift of the report. -/
theorem Shows.pressed (h : k.Shows r) :
    k.pressed = hidPositions k.mode r.2 ∪ shiftPositions k.mode r.1 := by
  rw [h.mirrors.pressed, h.lastKey]

/-- No key is down at first. -/
theorem shows_keyportInit (k : KeyInput) : k.keyportInit.Shows (0, 0) := by
  have hnone : shiftPositions k.keyportInit.mode 0 = ∅ :=
    Set.eq_empty_iff_forall_notMem.mpr fun p hp => hp.1 rfl
  exact ⟨hnone ▸ k.mirrors_keyportInit, rfl⟩

/-- By induction on the passes: none of them writes the key matrix. -/
theorem execute_keeps (n : Nat) (k : KeyInput) :
    (HidFrame.execute n k).machine.keyports = k.machine.keyports ∧
      (HidFrame.execute n k).mode = k.mode := by
  have hpasses : (pass^[n] k.machine).keyports = k.machine.keyports ∧
      (pass^[n] k.machine).mzMode = k.machine.mzMode := by
    induction n with
    | zero => exact ⟨rfl, rfl⟩
    | succ n ih =>
        rw [Function.iterate_succ_apply']
        exact keepsAll_keyports.trans ih (keepsAll_keyports.pass _)
  exact hpasses

/-- The guest leaves what is shown. -/
theorem Shows.execute (h : k.Shows r) (n : Nat) : (HidFrame.execute n k).Shows r := by
  obtain ⟨hkeyports, hmode⟩ := execute_keeps n k
  have hpressed : (HidFrame.execute n k).pressed = k.pressed := by
    rw [KeyMatrix.pressed, KeyMatrix.rows, hkeyports]
    rfl
  refine ⟨⟨?_, ?_, ?_⟩, h.lastKey⟩
  · rw [hpressed, h.mirrors.pressed, hmode]
    rfl
  · rw [shiftCode, hmode]
    exact h.mirrors.shift_subset
  · rw [hmode]
    exact h.mirrors.lastKey

/-- A report does not change the mode of the machine. -/
theorem mode_hear (p : Packet) (k : KeyInput) : (k.hear p).mode = k.mode := by
  rw [hear]
  cases keyReport p with
  | none => rfl
  | some r => exact mode_keyboard r.1 r.2 k

/-- No other source of `keyCheck` has a key under way or waiting. -/
structure AtRest (k : KeyInput) : Prop extends k.Quiet where
  preKeyCode : k.preKeyCode = none
  inputStringEx : k.inputStringEx = []

/-- At first nothing is under way. -/
theorem atRest_keyportInit {past : KeyTable → Nat → UInt8} {m : Machine} :
    (KeyInput.start past m).keyportInit.AtRest := ⟨⟨rfl, rfl, rfl, rfl, rfl, rfl⟩, rfl, rfl⟩

/-- The guest does not wake them. -/
theorem AtRest.execute (h : k.AtRest) (n : Nat) : (HidFrame.execute n k).AtRest :=
  ⟨h.toQuiet.congr rfl rfl rfl rfl, h.preKeyCode, h.inputStringEx⟩

/-- A key of the matrix is not a key under way. -/
theorem AtRest.onMatrix (h : k.AtRest) (f : KeyMatrix → KeyMatrix) : (k.onMatrix f).AtRest :=
  ⟨h.toQuiet.congr rfl rfl rfl rfl, h.preKeyCode, h.inputStringEx⟩

/-- A report does not, either. -/
theorem AtRest.keyboard (h : k.AtRest) (mods keyCode : UInt8) :
    (k.keyboard mods keyCode).AtRest := by
  have hshift : (k.reportShift mods).AtRest := by
    rw [reportShift]
    split <;> exact h.onMatrix _
  have hrelease : (k.reportShift mods).releaseLast.AtRest := by
    rw [releaseLast]
    split
    · exact (hshift.onMatrix _).onMatrix _
    · exact hshift
  have hlast : AtRest { (k.reportShift mods).releaseLast with lastKey := keyCode } :=
    ⟨hrelease.toQuiet.congr rfl rfl rfl rfl, hrelease.preKeyCode, hrelease.inputStringEx⟩
  rw [KeyInput.keyboard]
  dsimp only
  split
  · rw [pressNew]
    split
    · exact (hlast.onMatrix _).onMatrix _
    · exact hlast
  · exact hshift

/-- A packet that is no report is passed over. -/
theorem AtRest.hear (h : k.AtRest) (p : Packet) : (k.hear p).AtRest := by
  rw [KeyInput.hear]
  cases keyReport p with
  | none => exact h
  | some r => exact h.keyboard r.1 r.2

/-- `keyCheck` then asks the I2C keyboards, and does nothing more. -/
theorem AtRest.keyCheck (h : k.AtRest) {w : KeyWorld} (hw : w.Quiet) :
    ∃ n, k.keyCheck w = { k with i2cCheckCount := n } := by
  obtain ⟨n, hpoll⟩ := pollKeys_quiet h.toQuiet hw
  have hfree : k.keyCheck w = k.nextKey w := by
    rw [KeyInput.keyCheck, h.preKeyCode]
  have hjoy : k.checkJoyPad w.joyPad = k.toJoyPad := JoyPad.checkJoyPad_atRest h.joyPadPushed hw
  refine ⟨n, ?_⟩
  rw [hfree, nextKey, if_neg (ne_true_of_eq_false h.sendBreakFlag), hjoy]
  change k.takeQueued w = _
  rw [takeQueued, h.inputStringEx]
  dsimp only
  rw [if_neg (ne_true_of_eq_false h.inputStringMode), takeKey, if_pos rfl, hpoll]
  exact if_pos rfl

/-- What is shown stays, and so do the other sources. -/
theorem Shows.keyCheck (h : k.Shows r) (hrest : k.AtRest) {w : KeyWorld} (hw : w.Quiet) :
    (k.keyCheck w).Shows r ∧ (k.keyCheck w).AtRest ∧ (k.keyCheck w).mode = k.mode := by
  obtain ⟨n, hn⟩ := hrest.keyCheck hw
  rw [hn]
  have hmirrors : ({ k with i2cCheckCount := n } : KeyInput).Mirrors (shiftPositions k.mode r.1) :=
    ⟨h.mirrors.pressed, h.mirrors.shift_subset, h.mirrors.lastKey⟩
  exact ⟨⟨hmirrors, h.lastKey⟩,
    ⟨hrest.toQuiet.congr rfl rfl rfl rfl, hrest.preKeyCode, hrest.inputStringEx⟩, rfl⟩

/-- The keys of a packet can be looked up. -/
def Mapped (mode : MzMode) (p : Packet) : Prop := ∀ r ∈ keyReport p, HidKeyOk mode r.2

/-- A packet that is heard is what is shown from then on. -/
theorem Shows.hear (h : k.Shows r) {p : Packet} (hp : Mapped k.mode p) :
    (k.hear p).Shows ((keyReport p).getD r) := by
  rw [KeyInput.hear]
  cases hreport : keyReport p with
  | none => exact h
  | some r' =>
      obtain ⟨hmirrors, hlast⟩ := h.mirrors.keyboard r'.1 (hp r' hreport)
      rw [← mode_keyboard r'.1 r'.2 k] at hmirrors
      exact ⟨hmirrors, hlast⟩

end KeyInput

/-! ## a frame -/

/-- The interrupt channel of one input device is open, `rest` is still to come of the
stream of its connection, and `waiting` is on its queue.  The counters of the queues do
not wrap before its end. -/
structure Listening (s : Stack) (scid : Int) (rest : List Arrival) (waiting : List Packet) :
    Prop where
  rx : s.rx.contents = []
  rx_lasts : s.rx.Lasts rest.length
  tx_lasts : s.tx.Lasts 0
  channel : ∃ (i : Nat) (h : UInt16) (d : BTDevice) (sock : L2CAPSocket), h < 0x1000 ∧
    Link s i h scid d ∧ Follows h d rest ∧ d.sockets.lookup scid = some sock ∧
    sock.q.contents = waiting ∧ sock.q.Lasts rest.length
  input : ∃ (j : Nat) (e : InputDevice), s.inputs[j]? = some e ∧ HIDSource.Open scid e ∧
    ∀ (k : Nat) (e : InputDevice), s.inputs[k]? = some e → k ≠ j → HIDSource.Idle e

/-- The messages for a channel that some arrivals complete. -/
def messages (scid : Int) (l : List Arrival) : List Packet := channel scid (marks l)

/-- What arrives in two parts makes the messages of both, in order. -/
theorem messages_append (scid : Int) (l l' : List Arrival) :
    messages scid (l ++ l') = messages scid l ++ messages scid l' := by
  simp only [messages, marks, channel, List.filterMap_append, List.map_append, List.filter_append]

/-- An arrival completes one message at most. -/
theorem length_messages_le (scid : Int) (l : List Arrival) :
    (messages scid l).length ≤ l.length := by
  rw [messages, channel, marks, List.length_map]
  refine (List.length_filter_le _ _).trans ?_
  rw [List.length_map]
  exact List.length_filterMap_le _ _

namespace Listening

variable {s : Stack} {scid : Int} {rest : List Arrival} {waiting : List Packet} {k : KeyInput}

/-- What has arrived is on the queue, as far as there is room. -/
theorem update {l : List Arrival} (h : Listening s scid (l ++ rest) waiting)
    (hl : l.length ≤ qsize) (n : Nat) :
    ∃ s', HCI.update n (HidFrame.deliver l s) = some s' ∧
      Listening s' scid rest (Mailbox.filled qsize waiting (messages scid l)) := by
  obtain ⟨i, hd, d, sock, hh, hlink, hstep, hsock, hq, hqlasts⟩ := h.channel
  have hrx : (HidFrame.deliver l s).rx.contents = l.map Prod.fst := by
    refine (PacketQ.contents_foldl_write _ _).trans ?_
    rw [h.rx, List.nil_append, List.take_of_length_le (by rwa [List.length_map])]
  have hrxlasts : (HidFrame.deliver l s).rx.Lasts rest.length := by
    refine PacketQ.Lasts.foldl_write ?_
    rw [List.length_map, ← List.length_append]
    exact h.rx_lasts
  obtain ⟨s', d', hupdate, hinputs, hempty, hlasts, htx, hlink', hstep', hsockets⟩ :=
    HCI.update_arrivals hh n hrx hl (hlink.congr rfl) hstep
  have hsock' := BTDevice.lookup_foldl_deliver (marks l) hsock
  rw [← hsockets] at hsock'
  refine ⟨s', hupdate, hempty, hlasts _ hrxlasts, htx _ h.tx_lasts,
    ⟨i, hd, d', _, hh, hlink', hstep', hsock', ?_, ?_⟩, ?_⟩
  · rw [PacketQ.contents_foldl_write, hq]
    rfl
  · refine PacketQ.Lasts.foldl_write (hqlasts.mono ?_)
    rw [List.length_append]
    exact Nat.add_le_add_right (length_messages_le scid l) _
  · rw [hinputs]
    exact h.input

/-- The oldest packet of the queue is in the buffer, if there is one. -/
theorem get (h : Listening s scid rest waiting) {dst : List UInt8} (hdst : dst ≠ [])
    (hne : ∀ p ∈ waiting, p ≠ []) :
    ∃ s' buf n, HIDSource.get dst s = some (s', buf, n) ∧ Listening s' scid rest waiting.tail ∧
      waiting.head?.elim (n = 0) fun p =>
        0 < n ∧ ∃ more, buf = p.take dst.length ++ more := by
  obtain ⟨i, hd, d, sock, hh, hlink, hstep, hsock, hq, hqlasts⟩ := h.channel
  obtain ⟨j, e, he, hopen, hothers⟩ := h.input
  have hidle : ∀ k ∈ List.range s.inputs.length, k ≠ j →
      ∃ e, s.inputs[k]? = some e ∧ HIDSource.Idle e := by
    intro k hk hkj
    have hget := List.getElem?_eq_getElem (List.mem_range.mp hk)
    exact ⟨_, hget, hothers k _ hget hkj⟩
  have hj : j ∈ List.range s.inputs.length :=
    List.mem_range.mpr (List.getElem?_eq_some_iff.mp he).1
  cases waiting with
  | nil =>
      exact ⟨s, dst, 0, HIDSource.getFrom_nil hlink hsock hq he hopen hidle, h, rfl⟩
  | cons p w =>
      have hp := hne p List.mem_cons_self
      obtain ⟨sockets, q, hget, hlink', hsock', hq', hlasts⟩ :=
        HIDSource.getFrom_cons hlink hsock hq hp he hopen hj hdst hidle
      refine ⟨_, _, _, hget, ⟨h.rx, h.rx_lasts, h.tx_lasts, ⟨i, hd, _, _, hh, hlink',
        hstep.withSockets sockets, hsock', hq', hlasts _ hqlasts⟩, j, e, he, hopen, hothers⟩,
        ?_, _, rfl⟩
      rw [List.length_take, Nat.lt_min]
      exact ⟨List.length_pos_of_ne_nil hdst, List.length_pos_of_ne_nil hp⟩

/-- A frame hears one packet. -/
theorem step {f : HidFrame} (h : Listening s scid (f.arrivals ++ rest) waiting)
    (hl : f.arrivals.length ≤ qsize)
    (hlong : ∀ p ∈ waiting ++ messages scid f.arrivals, 5 ≤ p.length) (k : KeyInput) :
    ∃ s', f.step (s, k) = some (s', (Mailbox.filled qsize waiting
        (messages scid f.arrivals)).head?.elim ((HidFrame.execute f.passes k).keyCheck f.world)
          fun p => ((HidFrame.execute f.passes k).keyCheck f.world).hear p) ∧
      Listening s' scid rest (Mailbox.filled qsize waiting (messages scid f.arrivals)).tail := by
  obtain ⟨s₁, hupdate, h₁⟩ := h.update hl f.ready
  have hlong : ∀ p ∈ Mailbox.filled qsize waiting (messages scid f.arrivals), 5 ≤ p.length :=
    fun p hp => hlong p (List.mem_of_mem_take hp)
  generalize Mailbox.filled qsize waiting (messages scid f.arrivals) = w at h₁ hlong ⊢
  have hbuf : f.buf.toList.length = 64 := f.buf.length_toList
  have hdst : f.buf.toList ≠ [] := List.ne_nil_of_length_pos (by omega)
  obtain ⟨s₂, buf, n, hget, h₂, hread⟩ := h₁.get hdst
    fun p hp => List.ne_nil_of_length_pos (by have := hlong p hp; omega)
  refine ⟨s₂, ?_, h₂⟩
  simp only [HidFrame.step, hupdate, Option.bind_eq_bind, Option.bind_some, hget]
  cases w with
  | nil =>
      have hn : n = 0 := hread
      subst hn
      rfl
  | cons p w =>
      obtain ⟨hpos, more, rfl⟩ := hread
      rw [if_pos hpos, hbuf, guiHid_take (hlong p List.mem_cons_self)]
      rfl

/-- The messages of each frame. -/
abbrev rounds (scid : Int) (fs : List HidFrame) : List (List Packet) :=
  fs.map fun f => messages scid f.arrivals

/-- The messages of a run, frame by frame. -/
theorem messages_flatMap (scid : Int) (fs : List HidFrame) :
    messages scid (fs.flatMap HidFrame.arrivals) = (rounds scid fs).flatten := by
  induction fs with
  | nil => rfl
  | cons f fs ih =>
      rw [List.flatMap_cons, messages_append, ih]
      rfl

/-- A run of the main loop: the packets that are taken out in the rounds are heard. -/
theorem run {fs : List HidFrame} {r : UInt8 × UInt8}
    (h : Listening s scid (fs.flatMap HidFrame.arrivals ++ rest) waiting)
    (hfs : ∀ f ∈ fs, f.arrivals.length ≤ qsize)
    (hworld : ∀ f ∈ fs, f.world.Quiet)
    (hok : ∀ p ∈ waiting ++ (rounds scid fs).flatten, 5 ≤ p.length ∧ KeyInput.Mapped k.mode p)
    (hk : k.Shows r) (hrest : k.AtRest) :
    ∃ s' k', HidFrame.run fs (s, k) = some (s', k') ∧
      Listening s' scid rest (Mailbox.left qsize (rounds scid fs) waiting) ∧ k'.mode = k.mode ∧
      k'.Shows
        (((Mailbox.taken qsize (rounds scid fs) waiting).filterMap keyReport).getLastD r) := by
  induction fs generalizing s k waiting r with
  | nil => exact ⟨s, k, rfl, h, rfl, hk⟩
  | cons f fs ih =>
      obtain ⟨hf, hfs⟩ := List.forall_mem_cons.mp hfs
      obtain ⟨hw, hworld⟩ := List.forall_mem_cons.mp hworld
      rw [List.flatMap_cons, List.append_assoc] at h
      rw [rounds, List.map_cons, List.flatten_cons, ← List.append_assoc] at hok
      obtain ⟨s₁, hstep, h₁⟩ := h.step hf
        (fun p hp => (hok p (List.mem_append_left _ hp)).1) k
      have hsub : ∀ p ∈ Mailbox.filled qsize waiting (messages scid f.arrivals),
          p ∈ waiting ++ messages scid f.arrivals := fun p hp => List.mem_of_mem_take hp
      rw [HidFrame.run, hstep, Option.bind_some, rounds, List.map_cons, Mailbox.left,
        Mailbox.taken, List.filterMap_append]
      generalize Mailbox.filled qsize waiting (messages scid f.arrivals) = w at h₁ hsub ⊢
      obtain ⟨hshows, hrest, hmode⟩ := (hk.execute f.passes).keyCheck (hrest.execute f.passes) hw
      have hmode := hmode.trans (KeyInput.execute_keeps f.passes k).2
      have hlater : ∀ p ∈ w.tail ++ (rounds scid fs).flatten,
          5 ≤ p.length ∧ KeyInput.Mapped k.mode p := fun p hp =>
        hok p (List.mem_append.mpr ((List.mem_append.mp hp).imp_left fun hp =>
          hsub p (List.mem_of_mem_tail hp)))
      cases w with
      | nil =>
          rw [← hmode] at hlater ⊢
          exact ih h₁ hfs hworld hlater hshows hrest
      | cons p w =>
          have hp := (hok p (List.mem_append_left _ (hsub p List.mem_cons_self))).2
          rw [← hmode] at hp hlater ⊢
          rw [← KeyInput.mode_hear p] at hlater ⊢
          have hlast (l : List (UInt8 × UInt8)) :
              ([p].filterMap keyReport ++ l).getLastD r = l.getLastD ((keyReport p).getD r) := by
            cases hreport : keyReport p with
            | none => simp [hreport]
            | some r' =>
                rw [List.filterMap_cons_some hreport, List.filterMap_nil, List.singleton_append,
                  List.getLastD_cons]
                rfl
          rw [List.head?_cons, Option.toList_some, hlast]
          exact ih h₁ hfs hworld hlater (hshows.hear hp) (hrest.hear p)

end Listening

/-- Reports that come over the air, in fragments that frames may part, to the key
matrix: what was heard and what still waits are what was sent, in order and without
what found the queue full, and what is down is the last report that was heard. -/
theorem hidFrames_run {s : Stack} {k : KeyInput} {scid : Int} {fs : List HidFrame}
    {rest : List Arrival} {waiting : List Packet} {r : UInt8 × UInt8}
    (h : Listening s scid (fs.flatMap HidFrame.arrivals ++ rest) waiting)
    (hfs : ∀ f ∈ fs, f.arrivals.length ≤ qsize)
    (hworld : ∀ f ∈ fs, f.world.Quiet)
    (hok : ∀ p ∈ waiting ++ messages scid (fs.flatMap HidFrame.arrivals),
      5 ≤ p.length ∧ KeyInput.Mapped k.mode p)
    (hk : k.Shows r) (hrest : k.AtRest) :
    ∃ s' k' heard left, HidFrame.run fs (s, k) = some (s', k') ∧ Listening s' scid rest left ∧
      heard = Mailbox.taken qsize (Listening.rounds scid fs) waiting ∧
      (heard ++ left).Sublist (waiting ++ messages scid (fs.flatMap HidFrame.arrivals)) ∧
      (Mailbox.Fits qsize (Listening.rounds scid fs) waiting →
        heard ++ left = waiting ++ messages scid (fs.flatMap HidFrame.arrivals)) ∧
      k'.pressed = hidPositions k.mode ((heard.filterMap keyReport).getLastD r).2 ∪
        shiftPositions k.mode ((heard.filterMap keyReport).getLastD r).1 := by
  rw [Listening.messages_flatMap] at hok ⊢
  obtain ⟨s', k', hrun, hlistening, hmode, hshows⟩ := h.run hfs hworld hok hk hrest
  refine ⟨s', k', _, _, hrun, hlistening, rfl, Mailbox.taken_append_left_sublist,
    Mailbox.taken_append_left, ?_⟩
  rw [hshows.pressed, hmode]

/-- A keyboard with an open interrupt channel. -/
def oneKeyboard : Stack :=
  { Stack.init (.working fun _ => none) with
    devices := [{ BTDevice.new (Vector.replicate 6 0) with
      handle := 0x40
      sockets := [(0x41, ⟨.opened, 19, 0x41, 0x42, PacketQ.empty⟩)] }]
    inputs := [{ InputDevice.new (Vector.replicate 6 0) (Vector.replicate 3 0) with
      interrupt := 0x41 }] }

/-- A report of shift and A, in two fragments. -/
def shiftA : Message := ⟨0x41, [0xA1, 0x01, 0x02, 0], [[4, 0, 0, 0, 0, 0]]⟩

/-- No joystick and no I2C keyboard. -/
def noKeys : KeyWorld := ⟨⟨none, 0, 0⟩, none, none, 0⟩

/-- Two frames, with a fragment each. -/
def twoFrames : List HidFrame :=
  [⟨0, noKeys, (shiftA.arrivals 0x40).take 1, 0, Vector.replicate 64 0⟩,
    ⟨0, noKeys, (shiftA.arrivals 0x40).drop 1, 0, Vector.replicate 64 0⟩]

/-- Shift and A, whose report is cut between two frames. -/
theorem hidFrames_run_shiftA :
    ∃ s' k' heard left, HidFrame.run twoFrames
        (oneKeyboard, (KeyInput.start (fun _ _ => 0) Machine.cold).keyportInit) = some (s', k') ∧
      Listening s' 0x41 [] left ∧
      heard = Mailbox.taken qsize (Listening.rounds 0x41 twoFrames) [] ∧
      (heard ++ left).Sublist ([] ++ messages 0x41 (twoFrames.flatMap HidFrame.arrivals)) ∧
      (Mailbox.Fits qsize (Listening.rounds 0x41 twoFrames) [] →
        heard ++ left = [] ++ messages 0x41 (twoFrames.flatMap HidFrame.arrivals)) ∧
      k'.pressed = hidPositions .mode700 ((heard.filterMap keyReport).getLastD (0, 0)).2 ∪
        shiftPositions .mode700 ((heard.filterMap keyReport).getLastD (0, 0)).1 := by
  have hshiftA : ∀ m ∈ [shiftA], m.WellFormed := List.forall_mem_singleton.mpr
    ⟨by decide, by decide, by decide, by decide⟩
  have hstream : twoFrames.flatMap HidFrame.arrivals ++ [] =
      [shiftA].flatMap (Message.arrivals 0x40) := rfl
  have hlistening : Listening oneKeyboard 0x41 (twoFrames.flatMap HidFrame.arrivals ++ []) [] := by
    rw [hstream]
    refine ⟨rfl, .empty (by decide), .empty (by decide), ⟨0, 0x40, _, _, by decide,
      ⟨rfl, by decide, by decide⟩, .idle rfl hshiftA, rfl, rfl, .empty (by decide)⟩,
      0, _, rfl, ⟨rfl, by decide, rfl, by decide⟩, ?_⟩
    rintro (_ | k) e he hk
    · exact absurd rfl hk
    · cases he
  have hmessages : [] ++ messages 0x41 (twoFrames.flatMap HidFrame.arrivals) =
      [shiftA.payload] := rfl
  have hquiet : noKeys.Quiet := ⟨by rintro _ ⟨⟩, by decide, by decide, rfl, rfl⟩
  have hworld : ∀ f ∈ twoFrames, f.world.Quiet :=
    List.forall_mem_cons.mpr ⟨hquiet, List.forall_mem_singleton.mpr hquiet⟩
  refine hidFrames_run hlistening (by decide) hworld ?_ (KeyInput.shows_keyportInit _)
    KeyInput.atRest_keyportInit
  rw [hmessages]
  refine List.forall_mem_singleton.mpr ⟨by decide, fun r hr => ?_⟩
  cases hr
  exact .inr (.inr ⟨0x47, rfl, by decide⟩)

end M5Z80
