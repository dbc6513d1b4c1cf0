import Mathlib.Data.List.Nodup
import M5Z80.HidServer.Changes
import M5Z80.Lib.Store

/-!
# M5Z80.HidServer.Pairing

Link keys over runs of the host stack: a device that asks for the key of its
connection gets the one that was notified last for its address.
-/

namespace M5Z80
namespace HidServer

/-! ## hexadecimal digits -/

/-- The string that holds a key. -/
def entry (p : Bdaddr × Vector UInt8 16) : List UInt8 × Option (List UInt8) :=
  (toHex p.1.toList, some (toHex p.2.toList))

/-- A key as `write_link_key` hands it to the flash. -/
def written (p : Bdaddr × Vector UInt8 16) : List UInt8 × List UInt8 :=
  (toHex p.1.toList, toHex p.2.toList)

/-- A call that reads finds its string. -/
def Nvs.reads (f : Nvs) : Bool := f.handle && f.gets f.calls

/-- No call of the flash fails. -/
structure Nvs.Works (f : Nvs) : Prop where
  opens : ∀ n, f.opens n
  gets : ∀ n, f.gets n
  sets : ∀ n, f.sets n

/-- The key that was notified last for an address. -/
def lastKey (addr : Bdaddr) (log : List (Bdaddr × Vector UInt8 16)) : Option (Vector UInt8 16) :=
  Store.lastTo addr log

namespace Nvs

/-- What the notifications `log` make of the flash: of each address it holds the
key that was notified last, as far as the writes succeed. -/
def Stores (log : List (Bdaddr × Vector UInt8 16)) (f f' : Nvs) : Prop :=
  ∃ kept calls, kept.Sublist log ∧ (f.Works → kept = log) ∧
    f' = { f with
      strings := Store.replay (kept.map entry) f.strings
      written := f.written ++ kept.map HidServer.written
      calls := calls }

namespace Stores

variable {log log' : List (Bdaddr × Vector UInt8 16)} {f f' f'' : Nvs}

/-- The logs of two runs, one behind the other. -/
theorem trans (h : Stores log f f') (h' : Stores log' f' f'') : Stores (log ++ log') f f'' := by
  obtain ⟨kept, calls, hsub, hworks, rfl⟩ := h
  obtain ⟨kept', calls', hsub', hworks', rfl⟩ := h'
  refine ⟨kept ++ kept', calls', hsub.append hsub', fun hw => ?_, ?_⟩
  · rw [hworks hw, hworks' ⟨hw.opens, hw.gets, hw.sets⟩]
  · rw [List.map_append, List.map_append, ← List.append_assoc]
    exact congrArg (fun strings => ({ f with
      strings := strings
      written := f.written ++ kept.map HidServer.written ++ kept'.map HidServer.written
      calls := calls' } : Nvs)) List.foldl_append.symm

end Stores

end Nvs

/-- The link keys that a step handles. -/
def Op.linkKeys (op : Op) (s : Stack) : List (Bdaddr × Vector UInt8 16) :=
  match op with
  | .update _ => s.rx.contents.flatMap HidServer.linkKeys
  | _ => []

end HidServer
end M5Z80
