import Mathlib.Data.List.Basic

/-!
# M5Z80.Lib.Mailbox

A mailbox with room for `cap` items that is looked at once a round: whatever
arrives goes behind what waits, as far as there is room, and then one item is
taken out.
-/

namespace Mailbox

variable {α : Type*} {cap : Nat}

/-- What waits when the mailbox is looked at. -/
def filled (cap : Nat) (waiting arrived : List α) : List α := (waiting ++ arrived).take cap

/-- The items that are taken out over some rounds, in order. -/
def taken (cap : Nat) : List (List α) → List α → List α
  | [], _ => []
  | arrived :: rounds, waiting =>
      (filled cap waiting arrived).head?.toList ++
        taken cap rounds (filled cap waiting arrived).tail

/-- What waits after some rounds. -/
def left (cap : Nat) : List (List α) → List α → List α
  | [], waiting => waiting
  | arrived :: rounds, waiting => left cap rounds (filled cap waiting arrived).tail

/-- Nothing that arrives finds the mailbox full. -/
def Fits (cap : Nat) : List (List α) → List α → Prop
  | [], _ => True
  | arrived :: rounds, waiting =>
      (waiting ++ arrived).length ≤ cap ∧ Fits cap rounds (filled cap waiting arrived).tail

variable {rounds : List (List α)} {waiting : List α}

/-- A list is its head and its tail. -/
theorem head_append_tail (l : List α) : l.head?.toList ++ l.tail = l := by
  cases l <;> rfl

/-- Nothing is taken out twice or out of order. -/
theorem taken_append_left_sublist :
    (taken cap rounds waiting ++ left cap rounds waiting).Sublist (waiting ++ rounds.flatten) := by
  induction rounds generalizing waiting with
  | nil => simp [taken, left]
  | cons arrived rounds ih =>
      rw [taken, left, List.append_assoc, List.flatten_cons, ← List.append_assoc waiting]
      refine ((List.Sublist.refl _).append ih).trans ?_
      rw [← List.append_assoc, head_append_tail]
      exact (List.take_sublist _ _).append (List.Sublist.refl _)

/-- Nothing is lost, either, while it fits. -/
theorem taken_append_left (h : Fits cap rounds waiting) :
    taken cap rounds waiting ++ left cap rounds waiting = waiting ++ rounds.flatten := by
  induction rounds generalizing waiting with
  | nil => simp [taken, left]
  | cons arrived rounds ih =>
      obtain ⟨hfits, hrounds⟩ := h
      rw [taken, left, List.append_assoc, ih hrounds, ← List.append_assoc, head_append_tail, filled,
        List.take_of_length_le hfits, List.flatten_cons, List.append_assoc]

end Mailbox
