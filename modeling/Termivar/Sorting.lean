/-
# Sorting by a comparison

`sort_by` with a comparison that is a total order up to equality of keys: the
sorted list is ordered, and its head comes before every element of the list.
-/
import Mathlib

namespace Termivar

open List

variable {α : Type} (cmp : α → α → Ordering) [Std.TransCmp cmp]

theorem isLE_or_isLE (a b : α) : ((cmp a b).isLE || (cmp b a).isLE) = true := by
  rw [Bool.or_eq_true]
  refine (em _).imp_right fun hnot => ?_
  rw [Std.OrientedCmp.lt_of_not_isLE hnot]
  rfl

theorem isLE_self (a : α) : (cmp a a).isLE = true := by
  simpa using isLE_or_isLE cmp a a

theorem pairwise_mergeSort_cmp (xs : List α) :
    (xs.mergeSort fun a b => (cmp a b).isLE).Pairwise fun a b => (cmp a b).isLE = true :=
  pairwise_mergeSort (fun _ _ _ => Std.TransCmp.isLE_trans) (isLE_or_isLE cmp) xs

/-- The head of a sorted list is an element of the list and comes first. -/
theorem head?_mergeSort_cmp (xs : List α) :
    (xs = [] ∧ (xs.mergeSort fun a b => (cmp a b).isLE).head? = none) ∨
    ∃ x ∈ xs, (xs.mergeSort fun a b => (cmp a b).isLE).head? = some x ∧
      ∀ y ∈ xs, (cmp x y).isLE = true := by
  have hperm := mergeSort_perm xs fun a b => (cmp a b).isLE
  have hsor := pairwise_mergeSort_cmp cmp xs
  cases hsort : xs.mergeSort fun a b => (cmp a b).isLE with
  | nil =>
    rw [hsort] at hperm
    exact Or.inl ⟨hperm.nil_eq.symm, rfl⟩
  | cons x rest =>
    rw [hsort] at hperm hsor
    refine Or.inr ⟨x, hperm.mem_iff.mp mem_cons_self, rfl, fun y hy => ?_⟩
    obtain rfl | hrest := mem_cons.mp (hperm.mem_iff.mpr hy)
    · exact isLE_self cmp y
    · exact (pairwise_cons.mp hsor).1 y hrest

end Termivar
