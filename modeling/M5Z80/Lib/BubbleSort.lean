import Mathlib.Data.List.Chain
import Mathlib.Data.List.Perm.Basic
import Mathlib.Logic.Relation

/-!
# M5Z80.Lib.BubbleSort

Bubble sort as it is written with a flag: passes over the list that exchange
neighbours which are out of order, until a pass exchanges none.  Every
exchange removes an inversion, so the passes come to an end; what they leave
has no neighbours out of order, is a permutation of the list, and keeps the
order of elements of which no two are out of order.
-/

namespace BubbleSort

variable {α : Type*}

/-! ## the algorithm -/

section

variable (out : α → α → Prop) [DecidableRel out]

/-- Exchange the elements `i` and `i + 1` if they are out of order, and say
so. -/
def step (i : Nat) (s : List α × Bool) : List α × Bool :=
  match s.1[i]?, s.1[i + 1]? with
  | some a, some b => if out a b then ((s.1.set i b).set (i + 1) a, true) else s
  | _, _ => s

/-- One pass over the list. -/
def pass (l : List α) : List α × Bool :=
  (List.range (l.length - 1)).foldl (fun s i => step out i s) (l, false)

/-- Passes until one exchanges nothing; none is the result of too little
fuel. -/
def sort : Nat → List α → Option (List α)
  | 0, _ => none
  | fuel + 1, l => if (pass out l).2 then sort fuel (pass out l).1 else some (pass out l).1

end

/-! ## exchanges -/

/-- Two neighbours that are out of order are exchanged. -/
def Swap (out : α → α → Prop) (l l' : List α) : Prop :=
  ∃ pre a b post, out a b ∧ l = pre ++ a :: b :: post ∧ l' = pre ++ b :: a :: post

/-- The pairs that are out of order. -/
def inversions (out : α → α → Prop) [DecidableRel out] : List α → Nat
  | [] => 0
  | a :: l => l.countP (out a ·) + inversions out l

section

variable {out : α → α → Prop}

/-- A swap is a permutation. -/
theorem Swap.perm {l l' : List α} (h : Swap out l l') : l'.Perm l := by
  obtain ⟨pre, a, b, post, -, rfl, rfl⟩ := h
  exact (List.Perm.swap a b post).append_left pre

/-- Elements of which no two are out of order keep their order. -/
theorem Swap.filter_eq {l l' : List α} (h : Swap out l l') {p : α → Bool}
    (hp : ∀ a b, p a = true → p b = true → ¬ out a b) : l'.filter p = l.filter p := by
  obtain ⟨pre, a, b, post, hout, rfl, rfl⟩ := h
  have hnot : ¬ (p a = true ∧ p b = true) := fun hab => hp a b hab.1 hab.2 hout
  simp only [List.filter_append, List.filter_cons]
  grind

/-- So are any number of swaps. -/
theorem perm_of_reflTransGen {l l' : List α} (h : Relation.ReflTransGen (Swap out) l l') :
    l'.Perm l := by
  induction h with
  | refl => exact .refl l
  | tail _ hswap ih => exact hswap.perm.trans ih

/-- Swaps keep the order of elements that are not out of order. -/
theorem filter_of_reflTransGen {l l' : List α} (h : Relation.ReflTransGen (Swap out) l l')
    {p : α → Bool} (hp : ∀ a b, p a = true → p b = true → ¬ out a b) :
    l'.filter p = l.filter p := by
  induction h with
  | refl => rfl
  | tail _ hswap ih => rw [hswap.filter_eq hp, ih]

/-- An exchange removes one inversion. -/
theorem Swap.inversions_lt [DecidableRel out] (hasymm : ∀ a b, out a b → ¬ out b a)
    {l l' : List α} (h : Swap out l l') : inversions out l' < inversions out l := by
  obtain ⟨pre, a, b, post, hout, rfl, rfl⟩ := h
  induction pre with
  | nil => simp [inversions, hout, hasymm a b hout]; omega
  | cons c pre ih =>
      have hperm : (pre ++ b :: a :: post).Perm (pre ++ a :: b :: post) :=
        (List.Perm.swap a b post).append_left pre
      simp only [List.cons_append, inversions, hperm.countP_eq]
      omega

end

/-! ## passes -/

/-- Neighbours are not out of order below position `n`. -/
def OrderedTo (out : α → α → Prop) (n : Nat) (l : List α) : Prop :=
  ∀ i < n, ∀ a b, l[i]? = some a → l[i + 1]? = some b → ¬ out a b

section

variable {out : α → α → Prop} [DecidableRel out]

/-- Two neighbours and what is around them. -/
theorem exists_split {l : List α} {i : Nat} {a b : α} (ha : l[i]? = some a)
    (hb : l[i + 1]? = some b) : ∃ pre post, pre.length = i ∧ l = pre ++ a :: b :: post := by
  obtain ⟨hi, rfl⟩ := List.getElem?_eq_some_iff.mp ha
  obtain ⟨hi', rfl⟩ := List.getElem?_eq_some_iff.mp hb
  refine ⟨l.take i, l.drop (i + 2), List.length_take_of_le (Nat.le_of_lt hi), ?_⟩
  rw [← List.drop_eq_getElem_cons hi', ← List.drop_eq_getElem_cons hi, List.take_append_drop]

variable (out) in
/-- A step exchanges its two neighbours or finds them in order. -/
theorem step_cases (i : Nat) (s : List α × Bool) :
    (step out i s = s ∧ ∀ a b, s.1[i]? = some a → s.1[i + 1]? = some b → ¬ out a b) ∨
      ∃ l', Swap out s.1 l' ∧ step out i s = (l', true) := by
  cases ha : s.1[i]? with
  | none => exact .inl ⟨by simp [step, ha], by simp⟩
  | some a =>
      cases hb : s.1[i + 1]? with
      | none => exact .inl ⟨by simp [step, ha, hb], by simp⟩
      | some b =>
          by_cases hout : out a b
          · obtain ⟨pre, post, rfl, hl⟩ := exists_split ha hb
            refine .inr ⟨pre ++ b :: a :: post, ⟨pre, a, b, post, hout, hl, rfl⟩, ?_⟩
            simp [step, hout, hl]
          · exact .inl ⟨by simp [step, ha, hb, hout], by simp [hout]⟩

/-- What a pass has done after its first steps. -/
structure Passed (out : α → α → Prop) (l : List α) (n : Nat) (s : List α × Bool) : Prop where
  reaches : Relation.ReflTransGen (Swap out) l s.1
  swapped : s.2 = true → Relation.TransGen (Swap out) l s.1
  untouched : s.2 = false → s.1 = l ∧ OrderedTo out n l

/-- A step of the pass carries the greatest element so far on. -/
theorem Passed.step {l : List α} {n : Nat} {s : List α × Bool} (h : Passed out l n s) :
    Passed out l (n + 1) (step out n s) := by
  obtain ⟨heq, hordered⟩ | ⟨l', hswap, heq⟩ := step_cases out n s
  · rw [heq]
    refine ⟨h.reaches, h.swapped, fun hflag => ?_⟩
    obtain ⟨hl, hbefore⟩ := h.untouched hflag
    refine ⟨hl, fun i hi => ?_⟩
    obtain hlt | rfl := Nat.lt_succ_iff_lt_or_eq.mp hi
    · exact hbefore i hlt
    · rw [← hl]
      exact hordered
  · rw [heq]
    exact ⟨h.reaches.tail hswap, fun _ => .tail' h.reaches hswap, fun hflag =>
      absurd hflag.symm Bool.false_ne_true⟩

variable (out) in
/-- A pass carries the greatest element to the end. -/
theorem passed_pass (l : List α) : Passed out l (l.length - 1) (pass out l) := by
  rw [pass]
  generalize l.length - 1 = n
  induction n with
  | zero =>
      exact ⟨.refl, fun h => absurd h Bool.false_ne_true,
        fun _ => ⟨rfl, fun i hi => absurd hi (Nat.not_lt_zero i)⟩⟩
  | succ n ih =>
      rw [List.range_succ, List.foldl_append]
      exact ih.step

/-! ## the result -/

/-- Exchanges take inversions away. -/
theorem inversions_lt_of_transGen (hasymm : ∀ a b, out a b → ¬ out b a) {l l' : List α}
    (h : Relation.TransGen (Swap out) l l') : inversions out l' < inversions out l := by
  induction h with
  | single hswap => exact hswap.inversions_lt hasymm
  | tail _ hswap ih => exact (hswap.inversions_lt hasymm).trans ih

/-- With more fuel than inversions there is a result. -/
theorem exists_sort (hasymm : ∀ a b, out a b → ¬ out b a) (l : List α) :
    ∃ l', ∀ fuel, inversions out l < fuel → sort out fuel l = some l' := by
  induction hn : inversions out l using Nat.strong_induction_on generalizing l with
  | _ n ih =>
      subst hn
      cases hflag : (pass out l).2 with
      | false =>
          refine ⟨(pass out l).1, fun fuel hfuel => ?_⟩
          obtain ⟨fuel, rfl⟩ := Nat.exists_eq_succ_of_ne_zero (Nat.ne_of_gt (Nat.zero_lt_of_lt hfuel))
          simp [sort, hflag]
      | true =>
          have hlt := inversions_lt_of_transGen hasymm ((passed_pass out l).swapped hflag)
          obtain ⟨l', hl'⟩ := ih _ hlt (pass out l).1 rfl
          refine ⟨l', fun fuel hfuel => ?_⟩
          obtain ⟨fuel, rfl⟩ := Nat.exists_eq_succ_of_ne_zero (Nat.ne_of_gt (Nat.zero_lt_of_lt hfuel))
          simp only [sort, hflag, if_true]
          exact hl' fuel (by omega)

/-- The result comes from exchanges and has no neighbours out of order. -/
theorem of_sort {fuel : Nat} {l l' : List α} (h : sort out fuel l = some l') :
    Relation.ReflTransGen (Swap out) l l' ∧ OrderedTo out (l'.length - 1) l' := by
  induction fuel generalizing l with
  | zero => exact absurd h.symm (Option.some_ne_none l')
  | succ fuel ih =>
      have hpassed := passed_pass out l
      rw [sort] at h
      cases hflag : (pass out l).2 with
      | false =>
          obtain ⟨hl, hordered⟩ := hpassed.untouched hflag
          simp only [hflag, Bool.false_eq_true, if_false, Option.some.injEq] at h
          rw [← h, hl]
          exact ⟨.refl, hordered⟩
      | true =>
          simp only [hflag, if_true] at h
          obtain ⟨hreaches, hordered⟩ := ih h
          exact ⟨hpassed.reaches.trans hreaches, hordered⟩

end

/-- Neighbours in order are in order throughout, as far as the order is transitive. -/
theorem pairwise_of_orderedTo {out : α → α → Prop}
    (htrans : ∀ a b c, ¬ out a b → ¬ out b c → ¬ out a c) {l : List α}
    (h : OrderedTo out (l.length - 1) l) : l.Pairwise fun a b => ¬ out a b := by
  have hchain : l.IsChain fun a b => ¬ out a b := by
    rw [List.isChain_iff_getElem]
    intro i hi
    exact h i (by omega) _ _ (List.getElem?_eq_getElem _) (List.getElem?_eq_getElem hi)
  have : Trans (fun a b => ¬ out a b) (fun a b => ¬ out a b) (fun a b => ¬ out a b) :=
    ⟨fun hab hbc => htrans _ _ _ hab hbc⟩
  exact hchain.pairwise

end BubbleSort
