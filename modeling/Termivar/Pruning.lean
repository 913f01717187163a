/-
# Pruning a sorted list

A list is sorted, equal neighbours are dropped, and one pass keeps an entry
unless an entry kept before it covers it. What is kept covers what was given
(`normalize_covers`), and nothing kept is covered by what is kept before it. An
entry kept may still be covered by one that sorts after it: this happens exactly
where an entry is covered, but by none that sorts before it
(`normalize_antichain_iff`). Where it does not happen, the result depends on what
the list covers alone (`normalize_eq`).
-/
import Mathlib

namespace Termivar.Pruning

open List

variable {α : Type}

/-! ### One pass -/

section Pass

variable (covers : α → α → Bool)

/-- One pass: an entry is dropped if an entry kept so far covers it. -/
def prune (entries : List α) : List α :=
  entries.foldl (fun kept x => if kept.any (fun y => covers y x) then kept else kept ++ [x]) []

/-- Something in the list covers the entry. -/
def Covered (entries : List α) (x : α) : Prop := ∃ y ∈ entries, covers y x = true

variable {covers} {entries : List α} {x y : α}

@[simp] theorem prune_nil : prune covers [] = [] := rfl

theorem prune_concat (entries : List α) (x : α) : prune covers (entries ++ [x]) =
    if (prune covers entries).any (fun y => covers y x) then prune covers entries
    else prune covers entries ++ [x] := by
  simp [prune, foldl_append]

theorem prune_sublist (entries : List α) : (prune covers entries).Sublist entries := by
  induction entries using reverseRecOn with
  | nil => simp
  | append_singleton entries x ih =>
    rw [prune_concat]
    split_ifs
    · exact ih.trans (sublist_append_left entries [x])
    · exact ih.append_right [x]

theorem mem_of_mem_prune (h : x ∈ prune covers entries) : x ∈ entries :=
  (prune_sublist entries).subset h

/-- What was given is covered by what is kept. -/
theorem covered_prune (hrefl : ∀ x, covers x x = true) (hx : x ∈ entries) :
    Covered covers (prune covers entries) x := by
  induction entries using reverseRecOn with
  | nil => simp at hx
  | append_singleton entries z ih =>
    rw [prune_concat]
    rcases mem_append.mp hx with hx | hx
    · obtain ⟨y, hy, hcovers⟩ := ih hx
      split_ifs
      · exact ⟨y, hy, hcovers⟩
      · exact ⟨y, mem_append_left [z] hy, hcovers⟩
    · obtain rfl := mem_singleton.mp hx
      split_ifs with hany
      · exact any_eq_true.mp hany
      · exact ⟨x, by simp, hrefl x⟩

/-- Pruning changes nothing that is covered. -/
theorem covered_prune_iff (hrefl : ∀ x, covers x x = true)
    (htrans : ∀ x y z, covers x y = true → covers y z = true → covers x z = true) :
    Covered covers (prune covers entries) x ↔ Covered covers entries x := by
  constructor
  · rintro ⟨y, hy, hcovers⟩
    exact ⟨y, mem_of_mem_prune hy, hcovers⟩
  · rintro ⟨y, hy, hcovers⟩
    obtain ⟨z, hz, hzy⟩ := covered_prune hrefl hy
    exact ⟨z, hz, htrans z y x hzy hcovers⟩

/-- Nothing kept is covered by what is kept before it. -/
theorem pairwise_prune (entries : List α) :
    (prune covers entries).Pairwise fun x y => covers x y = false := by
  induction entries using reverseRecOn with
  | nil => simp
  | append_singleton entries x ih =>
    rw [prune_concat]
    split_ifs with hany
    · exact ih
    · refine pairwise_append.mpr ⟨ih, pairwise_singleton _ _, fun y hy z hz => ?_⟩
      rw [mem_singleton.mp hz]
      exact Bool.eq_false_iff.mpr fun hcovers => hany (any_eq_true.mpr ⟨y, hy, hcovers⟩)

/-- A list in which nothing is covered from before is kept as it is. -/
theorem prune_eq_self (h : entries.Pairwise fun x y => covers x y = false) :
    prune covers entries = entries := by
  induction entries using reverseRecOn with
  | nil => rfl
  | append_singleton entries x ih =>
    obtain ⟨hents, -, hlast⟩ := pairwise_append.mp h
    have hnone : ¬ (entries.any fun y => covers y x) = true := by
      intro hany
      obtain ⟨y, hy, hcovers⟩ := any_eq_true.mp hany
      rw [hlast y hy x (mem_singleton_self x)] at hcovers
      exact Bool.false_ne_true hcovers
    rw [prune_concat, ih hents, if_neg hnone]

end Pass

/-! ### Sorting first -/

variable [LinearOrder α]

/-- `sort_unstable` and `dedup`. -/
def sortDedup (entries : List α) : List α := (entries.insertionSort (· ≤ ·)).destutter (· ≠ ·)

@[simp] theorem mem_sortDedup {entries : List α} {x : α} : x ∈ sortDedup entries ↔ x ∈ entries := by
  rw [sortDedup, (pairwise_insertionSort (· ≤ ·) entries).destutter_eq_dedup, mem_dedup,
    mem_insertionSort]

theorem sorted_sortDedup (entries : List α) : (sortDedup entries).Pairwise (· < ·) := by
  have hsort := pairwise_insertionSort (· ≤ ·) entries
  have hnd : (sortDedup entries).Nodup := by
    rw [sortDedup, hsort.destutter_eq_dedup]
    exact nodup_dedup _
  exact (hsort.sublist (destutter_sublist (· ≠ ·) _)).and hnd |>.imp
    fun h => lt_of_le_of_ne h.1 h.2

/-- Sorted lists with the same entries are the same list. -/
theorem eq_of_sorted {entries others : List α} (h : entries.Pairwise (· < ·))
    (ho : others.Pairwise (· < ·)) (hmem : ∀ x, x ∈ entries ↔ x ∈ others) : entries = others :=
  h.eq_of_mem_iff ho hmem

theorem sortDedup_eq_self {entries : List α} (h : entries.Pairwise (· < ·)) :
    sortDedup entries = entries :=
  eq_of_sorted (sorted_sortDedup entries) h fun _ => mem_sortDedup

theorem sortDedup_congr {entries others : List α} (h : ∀ x, x ∈ entries ↔ x ∈ others) :
    sortDedup entries = sortDedup others :=
  eq_of_sorted (sorted_sortDedup entries) (sorted_sortDedup others) fun x => by simp [h x]

variable (covers : α → α → Bool)

/-- Sorted, without duplicates, and pruned. -/
def normalize (entries : List α) : List α := prune covers (sortDedup entries)

/-- What another entry covers is covered by one that sorts before it. -/
def CoveredInOrder (entries : List α) : Prop :=
  ∀ x ∈ entries, (∃ y ∈ entries, y ≠ x ∧ covers y x = true) → ∃ y ∈ entries, y < x ∧ covers y x = true

/-- No entry covers another one. -/
def Antichain (entries : List α) : Prop :=
  ∀ x ∈ entries, ∀ y ∈ entries, covers x y = true → x = y

instance (entries : List α) : Decidable (CoveredInOrder covers entries) :=
  inferInstanceAs (Decidable (∀ x ∈ entries, _ → _))

variable {covers} {entries others : List α} {x y : α}

theorem mem_of_mem_normalize (h : x ∈ normalize covers entries) : x ∈ entries :=
  mem_sortDedup.mp (mem_of_mem_prune h)

theorem sorted_normalize (entries : List α) : (normalize covers entries).Pairwise (· < ·) :=
  (sorted_sortDedup entries).sublist (prune_sublist _)

/-- Normalizing twice is normalizing once. -/
theorem normalize_idem (entries : List α) :
    normalize covers (normalize covers entries) = normalize covers entries := by
  conv_lhs => rw [normalize, sortDedup_eq_self (sorted_normalize entries)]
  exact prune_eq_self (pairwise_prune _)

/-- Normalizing changes nothing that is covered. -/
theorem normalize_covers (hrefl : ∀ x, covers x x = true)
    (htrans : ∀ x y z, covers x y = true → covers y z = true → covers x z = true) :
    Covered covers (normalize covers entries) x ↔ Covered covers entries x := by
  rw [normalize, covered_prune_iff hrefl htrans]
  simp [Covered]

/-- An entry is kept if no other entry covers it. -/
theorem mem_normalize_of_uncovered (hrefl : ∀ x, covers x x = true) (hx : x ∈ entries)
    (hnone : ∀ y ∈ entries, covers y x = true → y = x) : x ∈ normalize covers entries := by
  obtain ⟨y, hy, hcovers⟩ := covered_prune hrefl (mem_sortDedup.mpr hx)
  rwa [← hnone y (mem_of_mem_normalize hy) hcovers]

/-- In a sorted list, what covers an entry and is kept does not sort after it. -/
theorem covered_prune_le (hrefl : ∀ x, covers x x = true) (hsort : entries.Pairwise (· < ·))
    (hx : x ∈ entries) : ∃ y ∈ prune covers entries, y ≤ x ∧ covers y x = true := by
  induction entries using reverseRecOn with
  | nil => simp at hx
  | append_singleton entries z ih =>
    obtain ⟨hents, -, hlast⟩ := pairwise_append.mp hsort
    rw [prune_concat]
    rcases mem_append.mp hx with hx | hx
    · obtain ⟨y, hy, hle, hcovers⟩ := ih hents hx
      split_ifs
      · exact ⟨y, hy, hle, hcovers⟩
      · exact ⟨y, mem_append_left [z] hy, hle, hcovers⟩
    · obtain rfl := mem_singleton.mp hx
      split_ifs with hany
      · obtain ⟨y, hy, hcovers⟩ := any_eq_true.mp hany
        exact ⟨y, hy, (hlast y (mem_of_mem_prune hy) x hx).le, hcovers⟩
      · exact ⟨x, by simp, le_rfl, hrefl x⟩

/-- What is kept and sorts before an entry kept does not cover it. -/
theorem not_covers_of_lt (hx : x ∈ normalize covers entries) (hy : y ∈ normalize covers entries)
    (hlt : y < x) : covers y x = false := by
  let Apart (a b : α) : Prop := (a < b → covers a b = false) ∧ (b < a → covers b a = false)
  have hpair : (normalize covers entries).Pairwise Apart :=
    ((sorted_normalize entries).and (pairwise_prune (sortDedup entries))).imp
      fun h => ⟨fun _ => h.2, fun hgt => absurd hgt (lt_asymm h.1)⟩
  have hsymm : Std.Symm Apart := ⟨fun a b h => ⟨h.2, h.1⟩⟩
  exact (hpair.forall hy hx hlt.ne).1 hlt

/-- An entry that one before it covers is not kept. -/
theorem not_mem_normalize (hrefl : ∀ x, covers x x = true)
    (htrans : ∀ x y z, covers x y = true → covers y z = true → covers x z = true)
    (hy : y ∈ entries) (hlt : y < x) (hcovers : covers y x = true) :
    x ∉ normalize covers entries := by
  intro hx
  obtain ⟨z, hz, hle, hzy⟩ :=
    covered_prune_le hrefl (sorted_sortDedup entries) (mem_sortDedup.mpr hy)
  have hnot := not_covers_of_lt hx hz (hle.trans_lt hlt)
  rw [htrans z y x hzy hcovers] at hnot
  exact Bool.false_ne_true hnot.symm

section Order

variable (hrefl : ∀ x, covers x x = true)
  (htrans : ∀ x y z, covers x y = true → covers y z = true → covers x z = true)
include hrefl htrans

/-- **No entry kept covers another one exactly if what is covered is covered in
order.** -/
theorem normalize_antichain_iff (hant : ∀ x y, covers x y = true → covers y x = true → x = y) :
    Antichain covers (normalize covers entries) ↔ CoveredInOrder covers entries := by
  constructor
  · rintro hantic x hx ⟨y, hy, hne, hcovers⟩
    obtain ⟨z, hz, hle, hzx⟩ :=
      covered_prune_le hrefl (sorted_sortDedup entries) (mem_sortDedup.mpr hx)
    refine ⟨z, mem_of_mem_normalize hz, lt_of_le_of_ne hle ?_, hzx⟩
    -- if the entry itself were kept, what covers the other entry would be it
    rintro rfl
    obtain ⟨w, hw, hwy⟩ := covered_prune hrefl (mem_sortDedup.mpr hy)
    have hwz : w = z := hantic w hw z hz (htrans w y z hwy hcovers)
    exact hne (hant y z hcovers (hwz ▸ hwy))
  · intro hord x hx y hy hcovers
    by_contra hne
    obtain ⟨z, hz, hlt, hzy⟩ := hord y (mem_of_mem_normalize hy)
      ⟨x, mem_of_mem_normalize hx, hne, hcovers⟩
    exact not_mem_normalize hrefl htrans hz hlt hzy hy

/-- Covered in order, an entry is kept if nothing else covers it. -/
theorem mem_normalize_iff (hord : CoveredInOrder covers entries) :
    x ∈ normalize covers entries ↔ x ∈ entries ∧ ∀ y ∈ entries, covers y x = true → y = x := by
  constructor
  · intro hx
    refine ⟨mem_of_mem_normalize hx, fun y hy hcovers => ?_⟩
    by_contra hne
    obtain ⟨z, hz, hlt, hzx⟩ := hord x (mem_of_mem_normalize hx) ⟨y, hy, hne, hcovers⟩
    exact not_mem_normalize hrefl htrans hz hlt hzx hx
  · rintro ⟨hx, hnone⟩
    exact mem_normalize_of_uncovered hrefl hx hnone

/-- **Covered in order, what a list is normalized to depends on what it covers
alone.** -/
theorem normalize_eq (hant : ∀ x y, covers x y = true → covers y x = true → x = y)
    (hord : CoveredInOrder covers entries) (hord' : CoveredInOrder covers others)
    (hsame : ∀ x, Covered covers entries x ↔ Covered covers others x) :
    normalize covers entries = normalize covers others := by
  -- an entry that nothing else covers is an entry of the other list too
  have hmin : ∀ {entries others : List α},
      (∀ x, Covered covers entries x ↔ Covered covers others x) → ∀ x,
      (x ∈ entries ∧ ∀ y ∈ entries, covers y x = true → y = x) →
      x ∈ others ∧ ∀ y ∈ others, covers y x = true → y = x := by
    intro entries others hsame x hx
    have hall : ∀ y ∈ others, covers y x = true → y = x := by
      intro y hy hcovers
      obtain ⟨z, hz, hzy⟩ := (hsame y).mpr ⟨y, hy, hrefl y⟩
      have hzx : z = x := hx.2 z hz (htrans z y x hzy hcovers)
      exact hant y x hcovers (hzx ▸ hzy)
    obtain ⟨y, hy, hcovers⟩ := (hsame x).mp ⟨x, hx.1, hrefl x⟩
    exact ⟨hall y hy hcovers ▸ hy, hall⟩
  refine eq_of_sorted (sorted_normalize entries) (sorted_normalize others) fun x => ?_
  rw [mem_normalize_iff hrefl htrans hord, mem_normalize_iff hrefl htrans hord']
  exact ⟨hmin hsame x, hmin (fun z => (hsame z).symm) x⟩

end Order

end Termivar.Pruning
