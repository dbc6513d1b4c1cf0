import Mathlib.Data.String.Basic
import M5Z80.Lib.BubbleSort

/-!
# M5Z80.FileList

`sortList` of `Mzmain.cpp`: the names of the tape files in the order of
`compareTo` without regard to case.  `compareTo` is the one of the Arduino
library, of which it needs that it orders the upper-cased names.
-/

namespace M5Z80

/-- The names that `sortList` exchanges. -/
def OutOfOrder (compareTo : String → String → Int) (name1 name2 : String) : Prop :=
  0 < compareTo name1.toUpper name2.toUpper

instance (compareTo : String → String → Int) : DecidableRel (OutOfOrder compareTo) :=
  fun name1 name2 => inferInstanceAs (Decidable (0 < compareTo name1.toUpper name2.toUpper))

/-- `sortList`. -/
def sortList (compareTo : String → String → Int) (fuel : Nat) (fileList : List String) :
    Option (List String) :=
  BubbleSort.sort (OutOfOrder compareTo) fuel fileList

/-- `compareTo` is a total order on upper-cased names. -/
structure TotalOrder (compareTo : String → String → Int) : Prop where
  total : ∀ name1 name2 : String, compareTo name1.toUpper name2.toUpper ≤ 0 ∨
    compareTo name2.toUpper name1.toUpper ≤ 0
  trans : ∀ name1 name2 name3 : String, compareTo name1.toUpper name2.toUpper ≤ 0 →
    compareTo name2.toUpper name3.toUpper ≤ 0 → compareTo name1.toUpper name3.toUpper ≤ 0
  antisymm : ∀ name1 name2 : String, compareTo name1.toUpper name2.toUpper ≤ 0 →
    compareTo name2.toUpper name1.toUpper ≤ 0 → name1.toUpper = name2.toUpper

/-- Of two names in a total order only one pair is out of order. -/
theorem TotalOrder.asymm {compareTo : String → String → Int} (h : TotalOrder compareTo)
    (name1 name2 : String) (hout : OutOfOrder compareTo name1 name2) :
    ¬ OutOfOrder compareTo name2 name1 := by
  have htotal := h.total name1 name2
  rw [OutOfOrder] at hout ⊢
  omega

/-- Equal names are in order. -/
theorem TotalOrder.not_outOfOrder {compareTo : String → String → Int} (h : TotalOrder compareTo)
    {name1 name2 : String} (heq : name1.toUpper = name2.toUpper) :
    ¬ OutOfOrder compareTo name1 name2 := by
  have htotal := h.total name2 name2
  rw [OutOfOrder, heq]
  omega

/-- In a total order, pairs that are in order chain up. -/
theorem TotalOrder.not_outOfOrder_trans {compareTo : String → String → Int}
    (h : TotalOrder compareTo) (name1 name2 name3 : String)
    (h12 : ¬ OutOfOrder compareTo name1 name2) (h23 : ¬ OutOfOrder compareTo name2 name3) :
    ¬ OutOfOrder compareTo name1 name3 := by
  rw [OutOfOrder, Int.not_lt] at *
  exact h.trans name1 name2 name3 h12 h23

/-- `sortList` ends, after exchanges that leave no neighbours out of order. -/
theorem exists_sortList {compareTo : String → String → Int} (h : TotalOrder compareTo)
    (fileList : List String) : ∃ fuel sorted,
      (∀ fuel' ≥ fuel, sortList compareTo fuel' fileList = some sorted) ∧
      Relation.ReflTransGen (BubbleSort.Swap (OutOfOrder compareTo)) fileList sorted ∧
      BubbleSort.OrderedTo (OutOfOrder compareTo) (sorted.length - 1) sorted := by
  obtain ⟨sorted, hsorted⟩ := BubbleSort.exists_sort h.asymm fileList
  exact ⟨_, sorted, hsorted, BubbleSort.of_sort (hsorted _ (Nat.lt_succ_self _))⟩

/-- `sortList` ends, and leaves the same names, none before one that it is
greater than, with names that are equal but for case in the order they had. -/
theorem sortList_spec {compareTo : String → String → Int} (h : TotalOrder compareTo)
    (fileList : List String) : ∃ fuel sorted,
      (∀ fuel' ≥ fuel, sortList compareTo fuel' fileList = some sorted) ∧
      sorted.Perm fileList ∧
      sorted.Pairwise (fun name1 name2 => compareTo name1.toUpper name2.toUpper ≤ 0) ∧
      ∀ name : String, sorted.filter (·.toUpper = name) = fileList.filter (·.toUpper = name) := by
  obtain ⟨fuel, sorted, hsorted, hreaches, hordered⟩ := exists_sortList h fileList
  refine ⟨fuel, sorted, hsorted, BubbleSort.perm_of_reflTransGen hreaches, ?_, fun name => ?_⟩
  · refine (BubbleSort.pairwise_of_orderedTo h.not_outOfOrder_trans hordered).imp fun hnot => ?_
    exact Int.not_lt.mp hnot
  · refine BubbleSort.filter_of_reflTransGen hreaches fun name1 name2 h1 h2 => ?_
    rw [decide_eq_true_eq] at h1 h2
    exact h.not_outOfOrder (h1.trans h2.symm)

/-! ## `strcmp` -/

/-- The sign of `strcmp`, which is what `compareTo` returns. -/
def strcmp (name1 name2 : String) : Int :=
  if name1 < name2 then -1 else if name1 = name2 then 0 else 1

/-- `strcmp` orders names by their bytes. -/
theorem strcmp_le_zero_iff (name1 name2 : String) : strcmp name1 name2 ≤ 0 ↔ name1 ≤ name2 := by
  rw [strcmp]
  obtain hlt | rfl | hgt := lt_trichotomy name1 name2
  · rw [if_pos hlt]
    exact iff_of_true (by decide) (le_of_lt hlt)
  · rw [if_neg (lt_irrefl name1), if_pos rfl]
    exact iff_of_true (by decide) (le_refl name1)
  · rw [if_neg (lt_asymm hgt), if_neg (ne_of_gt hgt)]
    exact iff_of_false (by decide) (not_le_of_gt hgt)

theorem totalOrder_strcmp : TotalOrder strcmp where
  total name1 name2 := by
    rw [strcmp_le_zero_iff, strcmp_le_zero_iff]
    exact le_total _ _
  trans name1 name2 name3 := by
    rw [strcmp_le_zero_iff, strcmp_le_zero_iff, strcmp_le_zero_iff]
    exact le_trans
  antisymm name1 name2 := by
    rw [strcmp_le_zero_iff, strcmp_le_zero_iff]
    exact le_antisymm

/-- Three names of which two are equal but for case. -/
theorem sortList_strcmp : ∃ fuel sorted,
    (∀ fuel' ≥ fuel, sortList strcmp fuel' ["b.mzt", "S-BASIC.MZT", "B.MZT"] = some sorted) ∧
    sorted.Perm ["b.mzt", "S-BASIC.MZT", "B.MZT"] ∧
    sorted.Pairwise (fun name1 name2 => strcmp name1.toUpper name2.toUpper ≤ 0) ∧
    ∀ name : String, sorted.filter (·.toUpper = name) =
      ["b.mzt", "S-BASIC.MZT", "B.MZT"].filter (·.toUpper = name) :=
  sortList_spec totalOrder_strcmp _

end M5Z80
