import Mathlib.Data.List.Basic

/-!
# M5Z80.Lib.Staged

A writer with a staging buffer: chunks gather in the buffer and go to the
output when it is full.  However the flushes fall, output and buffer
together are the chunks in the order they were put, and a buffer whose
capacity is a multiple of the chunk length never overflows.
-/

/-- What has gone to the output, and what waits in the buffer. -/
structure Staged (α : Type*) where
  out : List α
  pending : List α

namespace Staged

variable {α ι : Type*}

/-- Everything put so far. -/
def contents (s : Staged α) : List α := s.out ++ s.pending

/-- Empty the buffer. -/
def flush (s : Staged α) : Staged α := ⟨s.out ++ s.pending, []⟩

/-- Add a chunk to the buffer, and empty it when it is full. -/
def put (cap : Nat) (chunk : List α) (s : Staged α) : Staged α :=
  let s : Staged α := ⟨s.out, s.pending ++ chunk⟩
  if cap ≤ s.pending.length then s.flush else s

/-- Put a chunk for each of a list of values. -/
def puts (cap : Nat) (enc : ι → List α) (l : List ι) (s : Staged α) : Staged α :=
  l.foldl (fun s i => s.put cap (enc i)) s

/-- Flushed, everything is out. -/
@[simp] theorem out_flush (s : Staged α) : s.flush.out = s.contents := rfl

/-- A flush does not change the contents. -/
@[simp] theorem contents_flush (s : Staged α) : s.flush.contents = s.contents :=
  List.append_nil _

/-- A chunk is added to the contents, whether the stage is flushed for it or not. -/
@[simp] theorem contents_put (cap : Nat) (chunk : List α) (s : Staged α) :
    (s.put cap chunk).contents = s.contents ++ chunk := by
  simp only [put]
  split
  · rw [contents_flush, contents, contents, List.append_assoc]
  · rw [contents, contents, List.append_assoc]

/-- Chunks in two lists. -/
theorem puts_append (cap : Nat) (enc : ι → List α) (l l' : List ι) (s : Staged α) :
    s.puts cap enc (l ++ l') = (s.puts cap enc l).puts cap enc l' :=
  List.foldl_append ..

/-- Nothing is lost, repeated or moved. -/
@[simp] theorem contents_puts (cap : Nat) (enc : ι → List α) (l : List ι) (s : Staged α) :
    (s.puts cap enc l).contents = s.contents ++ l.flatMap enc := by
  induction l generalizing s with
  | nil => exact (List.append_nil _).symm
  | cons i l ih =>
      change ((s.put cap (enc i)).puts cap enc l).contents = _
      rw [ih, contents_put, List.append_assoc, List.flatMap_cons]

/-- The buffer has room for another chunk. -/
structure Fits (cap k : Nat) (s : Staged α) : Prop where
  lt : s.pending.length < cap
  dvd : k ∣ s.pending.length

/-- A buffer of whole chunks has room for one more after each of them. -/
theorem Fits.put {cap k : Nat} {s : Staged α} (h : s.Fits cap k) {chunk : List α}
    (hk : chunk.length = k) : (s.put cap chunk).Fits cap k := by
  simp only [Staged.put]
  split
  · exact ⟨Nat.lt_of_le_of_lt (Nat.zero_le _) h.lt, Nat.dvd_zero k⟩
  · next hcap =>
      refine ⟨Nat.lt_of_not_le hcap, ?_⟩
      rw [List.length_append, hk]
      exact Nat.dvd_add h.dvd (Nat.dvd_refl k)

/-- Chunks of one length keep the stage at multiples of it. -/
theorem Fits.puts {cap k : Nat} {s : Staged α} (h : s.Fits cap k) {enc : ι → List α}
    (henc : ∀ i, (enc i).length = k) (l : List ι) : (s.puts cap enc l).Fits cap k := by
  induction l generalizing s with
  | nil => exact h
  | cons i l ih => exact ih (h.put (henc i))

/-- The chunk that is put last still fits. -/
theorem Fits.room {cap k : Nat} {s : Staged α} (h : s.Fits cap k) (hcap : k ∣ cap) :
    s.pending.length + k ≤ cap := by
  obtain ⟨a, ha⟩ := h.dvd
  obtain ⟨b, hb⟩ := hcap
  have hlt := h.lt
  rw [ha, hb] at hlt ⊢
  rw [← Nat.mul_succ]
  exact Nat.mul_le_mul_left k (Nat.lt_of_mul_lt_mul_left hlt)

end Staged
