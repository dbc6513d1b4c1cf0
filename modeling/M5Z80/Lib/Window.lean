import Mathlib.Data.List.Basic

/-!
# M5Z80.Lib.Window

A reader that keeps a window of a sequence in a buffer.  A position past
the window is reached by reading the next block, so the reader is right as
long as it goes forward, by less than a block at a time.
-/

variable {α : Type*}

/-- `buf` holds the positions from `start` up to `next`. -/
structure Window (α : Type*) where
  start : Nat
  next : Nat
  buf : Nat → α

namespace Window

/-- The window shows the sequence. -/
structure Holds (w : Window α) (xs : List α) : Prop where
  get : ∀ i, w.start ≤ i → i < w.next → xs[i]? = some (w.buf (i - w.start))

/-- Read the next `size` elements, or what is left; the rest of the buffer
stays. -/
def refill (size : Nat) (xs : List α) (w : Window α) : Window α where
  start := w.next
  next := w.next + ((xs.drop w.next).take size).length
  buf := fun k => ((xs.drop w.next).take size).getD k (w.buf k)

/-- A window that is filled holds its part. -/
theorem holds_refill (size : Nat) (xs : List α) (w : Window α) : (w.refill size xs).Holds xs := by
  refine ⟨fun i hlo hhi => ?_⟩
  simp only [refill] at hlo hhi ⊢
  have hlt : i - w.next < ((xs.drop w.next).take size).length := by omega
  rw [List.getD_eq_getElem?_getD, List.getElem?_eq_getElem hlt, Option.getD_some,
    List.getElem_take, List.getElem_drop]
  rw [List.length_take, List.length_drop] at hlt
  simp only [Nat.add_sub_cancel' hlo]
  exact List.getElem?_eq_getElem _

/-- Bring position `t` into the window. -/
def seek (size : Nat) (xs : List α) (t : Nat) (w : Window α) : Window α :=
  if w.next ≤ t then w.refill size xs else w

/-- A seek keeps a window that holds its part. -/
theorem Holds.seek {w : Window α} {xs : List α} (h : w.Holds xs) (size t : Nat) :
    (w.seek size xs t).Holds xs := by
  unfold Window.seek
  split
  · exact holds_refill size xs w
  · exact h

/-- A step of less than a block is covered. -/
theorem seek_covers {w : Window α} {xs : List α} {size t : Nat} (hstart : w.start ≤ t)
    (hstep : t < w.next + size) (ht : t < xs.length) :
    (w.seek size xs t).start ≤ t ∧ t < (w.seek size xs t).next := by
  unfold seek
  split
  · next hnext =>
      simp only [refill, List.length_take, List.length_drop]
      omega
  · next hnext => exact ⟨hstart, Nat.lt_of_not_le hnext⟩

/-- The window is no wider than a block. -/
theorem width_seek {w : Window α} {size : Nat} (hwidth : w.next ≤ w.start + size) (xs : List α)
    (t : Nat) : (w.seek size xs t).next ≤ (w.seek size xs t).start + size := by
  unfold seek
  split
  · simp only [refill, List.length_take]
    omega
  · exact hwidth

/-- A position is covered exactly when it is less than a block past the
window. -/
theorem seek_covers_iff {w : Window α} {xs : List α} {size t : Nat} (hstart : w.start ≤ t)
    (ht : t < xs.length) : t < (w.seek size xs t).next ↔ t < w.next + size := by
  refine ⟨fun h => ?_, fun hstep => (seek_covers hstart hstep ht).2⟩
  unfold seek at h
  split at h
  · simp only [refill, List.length_take] at h
    omega
  · omega

/-- A seek does not move the window past its target. -/
theorem start_seek_le {w : Window α} {t : Nat} (hstart : w.start ≤ t) (size : Nat) (xs : List α) :
    (w.seek size xs t).start ≤ t := by
  unfold seek
  split
  · next hnext => exact hnext
  · exact hstart

end Window

/-- A reader: a window, the position it was asked for last and the element
it found there. -/
structure Reader (α : Type*) extends Window α where
  pos : Nat
  val : α

namespace Reader

/-- Ask for position `t`; the position of the last request costs nothing. -/
def read (size : Nat) (xs : List α) (t : Nat) (r : Reader α) : Reader α :=
  if r.pos = t then r
  else
    let w := r.toWindow.seek size xs t
    { w with pos := t, val := w.buf (t - w.start) }

/-- The reader has found the element at its position. -/
structure Valid (r : Reader α) (xs : List α) : Prop extends r.toWindow.Holds xs where
  start_le : r.start ≤ r.pos
  pos_lt : r.pos < r.next
  found : xs[r.pos]? = some r.val

/-- The reader has not read anything, and stands at the first position. -/
structure Fresh (r : Reader α) : Prop where
  start : r.start = 0
  next : r.next = 0
  pos : r.pos = 0

/-- A read ends at the index it was for. -/
@[simp] theorem pos_read (size : Nat) (xs : List α) (t : Nat) (r : Reader α) :
    (r.read size xs t).pos = t := by
  unfold read
  split
  · next h => exact h
  · rfl

/-- A new position is found when the window covers it. -/
theorem valid_read_of_ne {r : Reader α} {xs : List α} (hholds : r.toWindow.Holds xs)
    {size t : Nat} (hne : r.pos ≠ t) (hstart : r.start ≤ t) (hstep : t < r.next + size)
    (ht : t < xs.length) : (r.read size xs t).Valid xs := by
  obtain ⟨hlo, hhi⟩ := Window.seek_covers hstart hstep ht
  have hseek := hholds.seek size t
  simp only [read, if_neg hne]
  exact ⟨hseek, hlo, hhi, hseek.get t hlo hhi⟩

/-- Going forward by less than a block past the window keeps the reader
right. -/
theorem Valid.read {r : Reader α} {xs : List α} (h : r.Valid xs) {size t : Nat}
    (hle : r.pos ≤ t) (hstep : t < r.next + size) (ht : t < xs.length) :
    (r.read size xs t).Valid xs := by
  by_cases hne : r.pos = t
  · rw [Reader.read, if_pos hne]
    exact h
  · exact valid_read_of_ne h.toHolds hne (Nat.le_trans h.start_le hle) hstep ht

/-- The first request past the first position makes a fresh reader right. -/
theorem Fresh.read {r : Reader α} {xs : List α} (h : r.Fresh) {size t : Nat} (hpos : t ≠ 0)
    (hstep : t < r.next + size) (ht : t < xs.length) : (r.read size xs t).Valid xs := by
  have hholds : r.toWindow.Holds xs := by
    refine ⟨fun i _ hi => ?_⟩
    rw [h.next] at hi
    omega
  refine valid_read_of_ne hholds ?_ ?_ hstep ht
  · rw [h.pos]; exact hpos.symm
  · rw [h.start]; exact Nat.zero_le t

/-- A reader that has gone forward only: it stands past the first position
and is right, or it has not read anything. -/
def Forward (r : Reader α) (xs : List α) : Prop := r.Valid xs ∧ r.pos ≠ 0 ∨ r.Fresh

section

variable {r : Reader α} {xs : List α} {size t : Nat} (h : r.Forward xs)
include h

/-- It takes a request for the first position as done. -/
theorem Forward.read_zero (hpos : r.pos = 0) : r.Fresh ∧ r.read size xs 0 = r := by
  obtain ⟨-, hne⟩ | hfresh := h
  · exact absurd hpos hne
  · exact ⟨hfresh, by rw [Reader.read, if_pos hfresh.pos]⟩

/-- The window of a reader that goes forward begins at or before its position. -/
theorem Forward.start_le : r.start ≤ r.pos := by
  obtain ⟨hvalid, -⟩ | hfresh := h
  · exact hvalid.start_le
  · rw [hfresh.start]
    exact Nat.zero_le _

/-- Less than a block past the position is less than a block past the
window. -/
theorem Forward.lt_next (hstep : t < r.pos + size) : t < r.next + size := by
  obtain ⟨hvalid, -⟩ | hfresh := h
  · have hpos := hvalid.pos_lt
    omega
  · rwa [hfresh.next, ← hfresh.pos]

/-- A read of the next part finds what it is for. -/
theorem Forward.valid_read (hle : r.pos ≤ t) (hstep : t < r.next + size) (ht : t < xs.length)
    (hne : t ≠ 0) : (r.read size xs t).Valid xs := by
  obtain ⟨hvalid, -⟩ | hfresh := h
  · exact hvalid.read hle hstep ht
  · exact hfresh.read hne hstep ht

/-- Every other position is read right. -/
theorem Forward.found (hle : r.pos ≤ t) (hstep : t < r.next + size) (ht : t < xs.length)
    (hne : t ≠ 0) : xs[t]? = some (r.read size xs t).val := by
  have hfound := (h.valid_read hle hstep ht hne).found
  rwa [pos_read] at hfound

/-- A reader that goes forward goes on doing so. -/
theorem Forward.read (hle : r.pos ≤ t) (hstep : t < r.next + size) (ht : t < xs.length) :
    (r.read size xs t).Forward xs := by
  by_cases hne : t = 0
  · subst hne
    rw [(h.read_zero (Nat.le_zero.mp hle)).2]
    exact h
  · exact .inl ⟨h.valid_read hle hstep ht hne, by rwa [pos_read]⟩

end

end Reader
