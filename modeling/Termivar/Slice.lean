/-
# Sorted slices

`binary_search_by` and `partition_point` of a slice, as the loop that halves
the part of the slice that is left, and `windows(2)`. On a slice in ascending
order the search fails exactly if no element compares equal
(`binarySearchBy_isErr_iff`), the partition point counts the elements with the
property (`partitionPoint_eq_countP`).
-/
import Mathlib

namespace Termivar.Slice

open List Option

variable {α : Type} {f : α → Ordering} {xs : List α}

/-- The loop: of the `size` elements from `base` on, one half is left out in
every turn. The fuel is the length of the slice. -/
def narrow (f : α → Ordering) (xs : List α) : Nat → Nat → Nat → Nat
  | 0, base, _ => base
  | fuel + 1, base, size =>
    if 1 < size then
      let half := size / 2
      let mid := base + half
      narrow f xs fuel (if xs[mid]?.map f = some .gt then base else mid) (size - half)
    else base

/-- The index of an element that compares equal, or the index where one would
go. -/
def binarySearchBy (f : α → Ordering) (xs : List α) : Except Nat Nat :=
  let base := narrow f xs xs.length 0 xs.length
  match xs[base]? with
  | none => .error 0
  | some x =>
    match f x with
    | .eq => .ok base
    | .lt => .error (base + 1)
    | .gt => .error base

/-- The index of the first element without the property. -/
def partitionPoint (p : α → Bool) (xs : List α) : Nat :=
  match binarySearchBy (fun x => if p x then .lt else .gt) xs with
  | .ok index => index
  | .error index => index

/-- What compares less comes first and what compares greater comes last. -/
def Ascending (f : α → Ordering) (xs : List α) : Prop :=
  xs.Pairwise fun x y => (f x = .gt → f y = .gt) ∧ (f y = .lt → f x = .lt)

/-- Where the search stands: all elements from `stop` on are greater, and the
element at `base` is not, unless it is the first. -/
structure Narrowed (f : α → Ordering) (xs : List α) (base stop : Nat) : Prop where
  lower : base = 0 ∨ ∃ x, xs[base]? = some x ∧ f x ≠ .gt
  upper : ∀ i x, stop ≤ i → xs[i]? = some x → f x = .gt

theorem Ascending.gt_after (h : Ascending f xs) {i j : Nat} {x y : α} (hij : i ≤ j)
    (hx : xs[i]? = some x) (hy : xs[j]? = some y) (hgt : f x = .gt) : f y = .gt := by
  obtain rfl | hlt := hij.eq_or_lt
  · rw [hx] at hy
    rwa [← some.inj hy]
  · obtain ⟨hi, rfl⟩ := List.getElem?_eq_some_iff.mp hx
    obtain ⟨hj, rfl⟩ := List.getElem?_eq_some_iff.mp hy
    exact (List.pairwise_iff_getElem.mp h i j hi hj hlt).1 hgt

theorem Ascending.lt_before (h : Ascending f xs) {i j : Nat} {x y : α} (hij : i ≤ j)
    (hx : xs[i]? = some x) (hy : xs[j]? = some y) (hlt : f y = .lt) : f x = .lt := by
  obtain rfl | hne := hij.eq_or_lt
  · rw [hx] at hy
    rwa [some.inj hy]
  · obtain ⟨hi, rfl⟩ := List.getElem?_eq_some_iff.mp hx
    obtain ⟨hj, rfl⟩ := List.getElem?_eq_some_iff.mp hy
    exact (List.pairwise_iff_getElem.mp h i j hi hj hne).2 hlt

/-- The loop ends at one element. -/
theorem narrow_spec (hasc : Ascending f xs) : ∀ fuel base size : Nat, size ≤ fuel + 1 → 1 ≤ size →
    base + size ≤ xs.length → Narrowed f xs base (base + size) →
    narrow f xs fuel base size < xs.length ∧
      Narrowed f xs (narrow f xs fuel base size) (narrow f xs fuel base size + 1)
  | 0, base, size, hfuel, hpos, hbd, h => by
    obtain rfl : size = 1 := by omega
    exact ⟨by simp only [narrow]; omega, h⟩
  | fuel + 1, base, size, hfuel, hpos, hbd, h => by
    rw [narrow]
    split_ifs with hsize
    · have hmid : base + size / 2 < xs.length := by omega
      have hget : xs[base + size / 2]? = some xs[base + size / 2] := getElem?_eq_getElem hmid
      have hgt : ((xs[base + size / 2]?.map f) = some .gt) ↔ f xs[base + size / 2] = .gt := by
        simp [hget]
      by_cases hf : f xs[base + size / 2] = .gt
      · simp only [hgt.mpr hf, if_true]
        refine narrow_spec hasc fuel base _ (by omega) (by omega) (by omega) ⟨h.lower, ?_⟩
        intro i x hi hx
        exact hasc.gt_after (show base + size / 2 ≤ i by omega) hget hx hf
      · simp only [hgt, hf, if_false]
        refine narrow_spec hasc fuel _ _ (by omega) (by omega) (by omega) ⟨Or.inr ⟨_, hget, hf⟩, ?_⟩
        intro i x hi hx
        exact h.upper i x (by omega) hx
    · obtain rfl : size = 1 := by omega
      exact ⟨by omega, h⟩

/-- Where the loop ends on a slice that is not empty. -/
theorem narrow_all (hasc : Ascending f xs) (hne : xs ≠ []) :
    narrow f xs xs.length 0 xs.length < xs.length ∧
      Narrowed f xs (narrow f xs xs.length 0 xs.length)
        (narrow f xs xs.length 0 xs.length + 1) := by
  refine narrow_spec hasc xs.length 0 xs.length (by omega) (length_pos_iff.mpr hne) (by omega)
    ⟨Or.inl rfl, fun i x hi hx => ?_⟩
  rw [getElem?_eq_none (by omega)] at hx
  cases hx

/-- The search fails exactly if no element compares equal. -/
theorem binarySearchBy_isErr_iff (hasc : Ascending f xs) :
    (∃ index, binarySearchBy f xs = .error index) ↔ ∀ x ∈ xs, f x ≠ .eq := by
  by_cases hne : xs = []
  · subst hne
    simp [binarySearchBy]
  obtain ⟨hbd, hbase⟩ := narrow_all hasc hne
  have hget := getElem?_eq_getElem hbd
  simp only [binarySearchBy, hget]
  constructor
  · rintro ⟨index, h⟩ x hx heq
    obtain ⟨i, hi, rfl⟩ := mem_iff_getElem.mp hx
    have hxi : xs[i]? = some xs[i] := getElem?_eq_getElem hi
    -- the element is not behind the place where the loop ended
    have hle : i ≤ narrow f xs xs.length 0 xs.length := by
      by_contra hlt
      have hgt := hbase.upper i _ (by omega) hxi
      rw [heq] at hgt
      cases hgt
    cases hf : f xs[narrow f xs xs.length 0 xs.length] with
    | eq =>
      rw [hf] at h
      cases h
    | lt =>
      have hlt := hasc.lt_before hle hxi hget hf
      rw [heq] at hlt
      cases hlt
    | gt =>
      rcases hbase.lower with hzero | ⟨y, hy, hngt⟩
      · have hsame := hasc.gt_after (Nat.le_of_eq (show _ = i by omega)) hget hxi hf
        rw [heq] at hsame
        cases hsame
      · rw [hget] at hy
        exact hngt (some.inj hy ▸ hf)
  · intro h
    have hf := h _ (getElem_mem hbd)
    cases hcmp : f xs[narrow f xs xs.length 0 xs.length] with
    | lt => exact ⟨_, rfl⟩
    | eq => exact absurd hcmp hf
    | gt => exact ⟨_, rfl⟩

variable {p : α → Bool} {x : α}

/-- Elements with the property come first: their number is where they end. -/
theorem countP_of_split {n : Nat} (hn : n ≤ xs.length)
    (htake : ∀ i x, i < n → xs[i]? = some x → p x = true)
    (hdrop : ∀ i x, n ≤ i → xs[i]? = some x → p x = false) : xs.countP p = n := by
  rw [← take_append_drop n xs, countP_append, countP_eq_length.mpr,
    countP_eq_zero.mpr, length_take, Nat.min_eq_left hn, Nat.add_zero]
  · intro x hx
    obtain ⟨i, hi, rfl⟩ := mem_iff_getElem.mp hx
    simp only [length_drop] at hi
    simp only [getElem_drop, Bool.not_eq_true]
    exact hdrop (n + i) _ (by omega) (getElem?_eq_getElem (by omega))
  · intro x hx
    obtain ⟨i, hi, rfl⟩ := mem_iff_getElem.mp hx
    simp only [length_take] at hi
    simp only [getElem_take]
    exact htake i _ (by omega) (getElem?_eq_getElem (by omega))

/-- The comparison by which a property is searched. -/
def side (p : α → Bool) (x : α) : Ordering := if p x then .lt else .gt

theorem side_eq_lt : side p x = .lt ↔ p x = true := by
  cases h : p x <;> simp [side, h]

theorem side_eq_gt : side p x = .gt ↔ p x = false := by
  cases h : p x <;> simp [side, h]

/-- The partition point from where the loop ends. -/
theorem partitionPoint_eq (hx : xs[narrow (side p) xs xs.length 0 xs.length]? = some x) :
    partitionPoint p xs = if p x then narrow (side p) xs xs.length 0 xs.length + 1
      else narrow (side p) xs xs.length 0 xs.length := by
  have hsearch : binarySearchBy (side p) xs = .error (if p x then
      narrow (side p) xs xs.length 0 xs.length + 1
      else narrow (side p) xs xs.length 0 xs.length) := by
    simp only [binarySearchBy, hx]
    cases hp : p x <;> simp [side, hp]
  have hdef : partitionPoint p xs = match binarySearchBy (side p) xs with
    | .ok index => index
    | .error index => index := rfl
  rw [hdef, hsearch]

/-- On a partitioned slice the partition point is the number of elements with
the property. -/
theorem partitionPoint_eq_countP (h : xs.Pairwise fun x y => p y = true → p x = true) :
    partitionPoint p xs = xs.countP p := by
  by_cases hne : xs = []
  · subst hne
    rfl
  have hasc : Ascending (side p) xs := by
    refine h.imp fun {x y} hp => ?_
    rw [side_eq_gt, side_eq_gt, side_eq_lt, side_eq_lt]
    exact ⟨fun hx => by simpa [hx] using hp, hp⟩
  obtain ⟨hbd, hbase⟩ := narrow_all hasc hne
  have hpoint := @partitionPoint_eq _ _ p _ (getElem?_eq_getElem hbd)
  rw [hpoint]
  clear hpoint
  generalize narrow (side p) xs xs.length 0 xs.length = base at hbd hbase ⊢
  have hget : xs[base]? = some xs[base] := getElem?_eq_getElem hbd
  have haft : ∀ i x, base < i → xs[i]? = some x → p x = false := by
    intro i x hi hx
    exact side_eq_gt.mp (hbase.upper i x hi hx)
  symm
  cases hp : p xs[base] with
  | true =>
    rw [if_pos rfl]
    refine countP_of_split hbd (fun i x hi hx => ?_) fun i x hi hx => haft i x (by omega) hx
    exact side_eq_lt.mp (hasc.lt_before (show i ≤ base by omega) hx hget (side_eq_lt.mpr hp))
  | false =>
    -- the loop ends at an element without the property only at the front
    have hzero : base = 0 := by
      rcases hbase.lower with hzero | ⟨y, hy, hngt⟩
      · exact hzero
      · rw [hget] at hy
        rw [← some.inj hy] at hngt
        exact absurd (side_eq_gt.mpr hp) hngt
    rw [if_neg Bool.false_ne_true]
    refine countP_of_split (by omega) (fun i x hi hx => absurd hi (by omega)) fun i x hi hx => ?_
    obtain rfl | hlt := hi.eq_or_lt
    · rw [hget] at hx
      rw [← some.inj hx]
      exact hp
    · exact haft i x hlt hx

/-! ### Neighbours -/

/-- `windows(2).any(..)`. -/
def adjacentAny (p : α → α → Bool) : List α → Bool
  | [] => false
  | [_] => false
  | x :: y :: rest => p x y || adjacentAny p (y :: rest)

end Termivar.Slice
