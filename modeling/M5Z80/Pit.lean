import M5Z80.Clock

/-!
# M5Z80.Pit

The 8253 programmable timer (`MZhw.cpp`): `pit_init`, control words
(`write_8253_cw`), ticks (`pitcount_job`, `pit_count`) and the counter
registers `E004`-`E006` as `mmio_in` and `mmio_out` access them.  What the
source does to `*st` is a function on one channel; the functions on the
machine pick the channel.
-/

namespace M5Z80

namespace T8253Stat

/-! ## one channel -/

/-- A channel after `memset(.., 0, ..)`. -/
def zero : T8253Stat := ⟨0, 0, 0, 0, 0, 0, 0, 0, 0, 0, 0⟩

/-- The loop body of `pit_init`. -/
def init (st : T8253Stat) : T8253Stat :=
  { st with
    rl := 3, rlBak := 3, counterBase := 0, counter := 0, counterLat := 0,
    counterOut := 0, latFlag := 0 }

/-- What `write_8253_cw` does to the selected channel: an access format of
`0` latches the counter, any other one programs the channel and stops it. -/
def control (st : T8253Stat) (dat : T8253Dat) : T8253Stat :=
  let st := { st with counterOut := 0 }
  if dat.rl = 0 then
    { st with counterLat := UInt16.ofInt st.counter, latFlag := 1 }
  else
    { st with bitHl := 0, latFlag := 0, running := 0, rl := dat.rl, bcd := dat.bcd, mode := dat.m }

/-- `pitcount_job`: count down by `cou`; the result is the output. -/
def pitcountJob (st : T8253Stat) (cou : Int) : Int × T8253Stat :=
  if st.running = 0 then (0, st)
  else
    let (out, st) : Int × T8253Stat :=
      if st.mode = 0 then
        if st.counter ≤ 0 then (1, { st with counter := 0 })
        else (0, { st with counter := st.counter - cou })
      else if st.mode = 2 then
        let st := { st with counter := st.counter - cou }
        if st.counter ≤ 0 then (1, { st with counter := st.counterBase.toNat }) else (0, st)
      else if st.mode = 4 then
        let st := { st with counter := st.counter - cou }
        if st.counter ≤ 0 then (1, { st with counter := -1 }) else (0, st)
      else (0, st)
    (out, { st with counterOut := UInt16.ofInt out })

/-- Reading the counter register.  A latched read returns `counter_lat`, a
live one `counter`; `counter >> 8` keeps the sign of `counter`. -/
def read (st : T8253Stat) : Int × T8253Stat :=
  if st.latFlag ≠ 0 then
    if st.rl = 1 then (st.counterLat.toNat % 256, { st with latFlag := 0 })
    else if st.rl = 2 then (st.counterLat.toNat / 256, { st with latFlag := 0 })
    else if st.rl = 3 then
      let st := { st with bitHl := st.bitHl ^^^ 1 }
      if st.bitHl ≠ 0 then (st.counterLat.toNat % 256, st)
      else (st.counterLat.toNat / 256, { st with latFlag := 0 })
    else (0x7f, st)
  else
    if st.rl = 1 then (st.counter % 256, st)
    else if st.rl = 2 then (st.counter / 256, st)
    else if st.rl = 3 then
      let st := { st with bitHl := st.bitHl ^^^ 1 }
      if st.bitHl ≠ 0 then (st.counter % 256, st) else (st.counter / 256, st)
    else (0xff, st)

/-- A new `counter_base` reaches `counter` at once unless the channel is
running in mode 2 or 3. -/
def reload (st : T8253Stat) (base : UInt16) : T8253Stat :=
  let st := { st with counterBase := base }
  if st.running = 0 ∨ (st.mode ≠ 2 ∧ st.mode ≠ 3) then { st with counter := base.toNat } else st

/-- Every write of the counter register drops the latch, and in mode 0 the
output. -/
def unlatch (st : T8253Stat) : T8253Stat :=
  if st.mode = 0 then { st with counterOut := 0, latFlag := 0 } else { st with latFlag := 0 }

/-- Writing the counter register. -/
def write (st : T8253Stat) (val : UInt32) : T8253Stat :=
  let st := st.unlatch
  if st.rl = 1 then
    { st.reload (val &&& 0x00FF).toUInt16 with bitHl := 0, running := 1 }
  else if st.rl = 2 then
    { st.reload ((val <<< 8) &&& 0xFF00).toUInt16 with bitHl := 0, running := 1 }
  else if st.rl = 3 then
    if st.bitHl ≠ 0 then
      let base := (((st.counterBase &&& 0xFF).toUInt32 ||| (val <<< 8)) &&& 0xFFFF).toUInt16
      { st.reload base with running := 1, bitHl := st.bitHl ^^^ 1 }
    else
      { st.reload (val &&& 0x00FF).toUInt16 with bitHl := st.bitHl ^^^ 1 }
  else st

end T8253Stat

/-! ## the three channels -/

/-- What the numerals for the channels rest on. -/
instance neZero_channels : NeZero 3 := ⟨by decide⟩

/-- Access `_8253_stat[i]`.  An index past the end is noted in the trace
like any other; what it reaches is not a channel, and no channel changes. -/
def modStat (i : Nat) (f : T8253Stat → T8253Stat) (m : Machine) : Machine :=
  let m := m.use .stat8253 i
  if h : i < 3 then
    { m with stat8253 := Function.update m.stat8253 ⟨i, h⟩ (f (m.stat8253 ⟨i, h⟩)) }
  else m

/-- An access to one of the three channels. -/
theorem modStat_eq (no : Fin 3) (f : T8253Stat → T8253Stat) (m : Machine) :
    modStat no f m = { m.use .stat8253 no with
      stat8253 := Function.update m.stat8253 no (f (m.stat8253 no)) } := by
  simp only [modStat, dif_pos no.isLt]
  rfl

/-- `pit_init`: it initialises channels 0 and 1. -/
def pitInit (m : Machine) : Machine :=
  let m := modStat (1 : Fin 3) T8253Stat.init (modStat (0 : Fin 3) T8253Stat.init m)
  { m with dat8253 := { m.dat8253 with bcd := 0, m := 0, rl := 3, sc := 0 } }

/-- `write_8253_cw`. -/
def write8253Cw (cw : UInt32) (m : Machine) : Machine :=
  let dat := { m.dat8253 with
    bcd := (cw &&& 1).toUInt8
    m := ((cw >>> 1) &&& 7).toUInt8
    rl := ((cw >>> 4) &&& 3).toUInt8
    sc := ((cw >>> 6) &&& 3).toUInt8 }
  modStat dat.sc.toNat (·.control dat) { m with dat8253 := dat }

/-- `pitcount_job(no, cou)`. -/
def pitcountJob (no : Fin 3) (cou : Int) (m : Machine) : Int × Machine :=
  let m := m.use .stat8253 no
  let (out, st) := (m.stat8253 no).pitcountJob cou
  (out, { m with stat8253 := Function.update m.stat8253 no st })

/-- `pit_count`: channel 2 counts the output pulses of channel 1. -/
def pitCount (m : Machine) : Int × Machine :=
  let (out, m) := pitcountJob 1 1 m
  if out ≠ 0 then pitcountJob 2 1 m else (0, m)

/-- `play8253`: the sound flag follows the gate of `E008`. -/
def play8253 (m : Machine) : Machine :=
  { m with dat8253.setsound := if m.dat8253.makesound = 0 then 0 else 1 }

end M5Z80
