import Mathlib.Data.List.Perm.Basic

/-!
# M5Z80.Lib.Modify

A table that is changed at one position: what is read off its entries changes
as that entry does.
-/

namespace Modify

variable {α β : Type*} {f : α → α}

/-- A change of one element that a function does not see. -/
theorem map_modify (g : α → β) (l : List α) (i : Nat)
    (hf : ∀ a, l[i]? = some a → g (f a) = g a) : (l.modify i f).map g = l.map g := by
  refine List.ext_getElem? fun k => ?_
  rw [List.getElem?_map, List.getElem?_map, List.getElem?_modify]
  by_cases h : i = k
  · subst h
    cases hl : l[i]? with
    | none => rfl
    | some a => simp [hf a hl]
  · simp [h]

/-- The lists of the entries are joined in order. -/
theorem flatMap_modify_sublist (g : α → List β) (l : List α) (i : Nat)
    (hf : ∀ a, l[i]? = some a → (g (f a)).Sublist (g a)) :
    ((l.modify i f).flatMap g).Sublist (l.flatMap g) := by
  induction l generalizing i with
  | nil => simp
  | cons a l ih =>
      cases i with
      | zero =>
          rw [List.modify_zero_cons, List.flatMap_cons, List.flatMap_cons]
          exact (hf a rfl).append_right _
      | succ i =>
          rw [List.modify_succ_cons, List.flatMap_cons, List.flatMap_cons]
          exact (ih i hf).append_left _

/-- A change of one element that adds to what a function gathers. -/
theorem flatMap_modify_perm (g : α → List β) {l : List α} {i : Nat} {a : α} {b : β}
    (hl : l[i]? = some a) (hf : (g (f a)).Perm (b :: g a)) :
    ((l.modify i f).flatMap g).Perm (b :: l.flatMap g) := by
  induction l generalizing i with
  | nil => cases hl
  | cons a' l ih =>
      cases i with
      | zero =>
          obtain rfl : a' = a := Option.some.inj hl
          rw [List.modify_zero_cons, List.flatMap_cons, List.flatMap_cons]
          exact hf.append_right _
      | succ i =>
          rw [List.modify_succ_cons, List.flatMap_cons, List.flatMap_cons]
          exact ((ih hl).append_left (g a')).trans List.perm_middle

/-- A count changes as that of the entry does. -/
theorem countP_modify (p : α → Bool) {l : List α} {i : Nat} {a : α} (hl : l[i]? = some a) :
    (l.modify i f).countP p + (p a).toNat = l.countP p + (p (f a)).toNat := by
  induction l generalizing i with
  | nil => cases hl
  | cons a' l ih =>
      cases i with
      | zero =>
          obtain rfl : a' = a := Option.some.inj hl
          rw [List.modify_zero_cons, List.countP_cons, List.countP_cons]
          cases p a' <;> cases p (f a') <;> simp
      | succ i =>
          have h := ih hl
          rw [List.modify_succ_cons, List.countP_cons, List.countP_cons]
          omega

/-- A table of pairs whose values all change, each by its key. -/
theorem lookup_map [BEq α] [LawfulBEq α] (g : α → β → β) (l : List (α × β)) (k : α) :
    (l.map fun p => (p.1, g p.1 p.2)).lookup k = (l.lookup k).map (g k) := by
  induction l with
  | nil => rfl
  | cons p l ih =>
      rw [List.map_cons, List.lookup_cons, List.lookup_cons]
      cases h : k == p.1 with
      | true => rw [eq_of_beq h, Option.map_some]
      | false => exact ih

/-- A vector that is changed at one position. -/
theorem get_set {n : Nat} (v : Vector α n) (i k : Fin n) (a : α) :
    (v.set i a i.isLt).get k = if i = k then a else v.get k := by
  simp only [Fin.ext_iff]
  exact Vector.getElem_set ..

end Modify
