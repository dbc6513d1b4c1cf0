import Mathlib.Data.List.Basic

/-!
# M5Z80.Lib.Chunks

Values written one after the other, each as a chunk of the same length:
what is at a multiple of that length, and what is inside a chunk.
-/

namespace Chunks

variable {α β : Type*} {enc : α → List β} {k : Nat}

/-- Chunks of one length add up. -/
theorem length_flatMap (henc : ∀ a, (enc a).length = k) (l : List α) :
    (l.flatMap enc).length = k * l.length := by
  induction l with
  | nil => rfl
  | cons a l ih => rw [List.flatMap_cons, List.length_append, henc, ih, List.length_cons,
      Nat.mul_succ, Nat.add_comm]

/-- Whole chunks can be dropped one value at a time. -/
theorem drop_flatMap (henc : ∀ a, (enc a).length = k) (l : List α) (i : Nat) :
    (l.flatMap enc).drop (k * i) = (l.drop i).flatMap enc := by
  induction l generalizing i with
  | nil => simp
  | cons a l ih =>
      cases i with
      | zero => rfl
      | succ i =>
          rw [List.flatMap_cons, Nat.mul_succ, Nat.add_comm, ← List.drop_drop,
            List.drop_left' (henc a), ih, List.drop_succ_cons]

/-- The first chunks of an encoding are the encoding of the first. -/
theorem take_flatMap (henc : ∀ a, (enc a).length = k) (l : List α) (i : Nat) :
    (l.flatMap enc).take (k * i) = (l.take i).flatMap enc := by
  induction l generalizing i with
  | nil => simp
  | cons a l ih =>
      cases i with
      | zero => simp
      | succ i =>
          rw [List.flatMap_cons, Nat.mul_succ, Nat.add_comm, List.take_add, List.take_left' (henc a),
            List.drop_left' (henc a), ih, List.take_succ_cons, List.flatMap_cons]

/-- Position `j` of chunk `i`. -/
theorem getElem?_flatMap (henc : ∀ a, (enc a).length = k) {l : List α} {i : Nat} {a : α}
    (hi : l[i]? = some a) {j : Nat} (hj : j < k) : (l.flatMap enc)[k * i + j]? = (enc a)[j]? := by
  rw [← List.getElem?_drop, drop_flatMap henc]
  obtain ⟨hlt, hget⟩ := List.getElem?_eq_some_iff.mp hi
  rw [List.drop_eq_getElem_cons hlt, hget, List.flatMap_cons,
    List.getElem?_append_left (by rw [henc]; exact hj)]

end Chunks
