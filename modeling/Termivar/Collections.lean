/-
# Ordered maps and sets

Finite maps and sets over an ordered key type, iterated in key order: Lean's
extensional trees under the names the sources use for them. What the
developments need of them beyond the library: what an insertion does to the
list of entries (`toList_insert_new`, `toList_insert_old`), so to a count over
it (`countOf_insert_new`, `countOf_insert_old`), and orders on records
(`lawfulEqCmp_compareOn`, `lawfulEqCmp_compareLex`).
-/
import Mathlib

namespace Termivar

open List

/-- A finite map, iterated in key order. -/
abbrev BTreeMap (K V : Type) [Ord K] : Type := Std.ExtTreeMap K V

/-- A finite set, iterated in order. -/
abbrev BTreeSet (K : Type) [Ord K] : Type := Std.ExtTreeSet K

/-! ### Orders -/

section Orders

variable {α β : Type}

/-- An order through an injection tells its arguments apart. -/
theorem lawfulEqCmp_compareOn [Ord β] [Std.LawfulEqOrd β] {f : α → β}
    (hf : Function.Injective f) : Std.LawfulEqCmp (compareOn f) where
  compare_self {a} := by simp [compareOn]
  eq_of_compare {a b} h := hf (Std.LawfulEqOrd.compare_eq_iff_eq.mp h)

/-- A lexicographic order tells its arguments apart if its two keys together do. -/
theorem lawfulEqCmp_compareLex {f g : α → α → Ordering} (hf : ∀ a, f a a = .eq)
    (hg : ∀ a, g a a = .eq) (h : ∀ {a b}, f a b = .eq → g a b = .eq → a = b) :
    Std.LawfulEqCmp (compareLex f g) where
  compare_self {a} := by simp [compareLex, hf, hg]
  eq_of_compare {a b} hab := by
    simp only [compareLex, Ordering.then_eq_eq] at hab
    exact h hab.1 hab.2

end Orders

/-! ### Maps -/

section Maps

variable {K V : Type} [Ord K] [Std.TransOrd K]

variable (m : BTreeMap K V)

/-- The number of entries with the property `p`. -/
def countOf (p : K → V → Bool) : Nat := m.toList.countP fun e => p e.1 e.2

@[simp] theorem get_insert_self (k : K) (v : V) :
    (m.insert k v)[k]? = some v :=
  Std.ExtTreeMap.getElem?_insert_self

theorem contains_eq_isSome (k : K) : m.contains k = (m[k]?).isSome :=
  Std.ExtTreeMap.contains_eq_isSome_getElem?

variable (v : V) {k : K} {w : V} {p : K → V → Bool}

theorem get_of_not_contains {m : BTreeMap K V} (h : ¬ m.contains k = true) :
    m[k]? = none := by
  rw [contains_eq_isSome] at h
  exact Option.not_isSome_iff_eq_none.mp h

theorem keys_nodup : (m.toList.map Prod.fst).Nodup := by
  rw [Std.ExtTreeMap.map_fst_toList_eq_keys]
  exact Std.ExtTreeMap.nodup_keys

theorem toList_nodup : m.toList.Nodup := List.Nodup.of_map _ (keys_nodup m)

theorem countOf_add_not (p : K → V → Bool) :
    (countOf m p + countOf m fun k v => !p k v) = m.size := by
  rw [← Std.ExtTreeMap.length_toList]
  unfold countOf
  rw [length_eq_countP_add_countP (fun e : K × V => p e.1 e.2)]
  simp

theorem size_insert_new {m : BTreeMap K V} (h : m[k]? = none) :
    (m.insert k v).size = m.size + 1 := by
  rw [Std.ExtTreeMap.size_insert, contains_eq_isSome, h]
  rfl

theorem size_insert_old {m : BTreeMap K V} (h : m[k]? = some w) :
    (m.insert k v).size = m.size := by
  rw [Std.ExtTreeMap.size_insert, contains_eq_isSome, h]
  rfl

variable [Std.LawfulEqOrd K] {m : BTreeMap K V}

theorem get_insert [DecidableEq K] (m : BTreeMap K V) (k a : K) (v : V) :
    (m.insert k v)[a]? = if k = a then some v else m[a]? := by
  rw [Std.ExtTreeMap.getElem?_insert]
  simp only [Std.LawfulEqOrd.compare_eq_iff_eq]

theorem get_insert_ne {k a : K} (h : k ≠ a) : (m.insert k v)[a]? = m[a]? := by
  rw [Std.ExtTreeMap.getElem?_insert, if_neg]
  simpa [Std.LawfulEqOrd.compare_eq_iff_eq] using h

theorem insert_insert (k : K) (v w : V) :
    (m.insert k v).insert k w = m.insert k w := by
  classical
  refine Std.ExtTreeMap.ext_getElem? fun a => ?_
  simp only [get_insert]
  split_ifs <;> rfl

theorem get_erase [DecidableEq K] (m : BTreeMap K V) (k a : K) :
    (m.erase k)[a]? = if k = a then none else m[a]? := by
  rw [Std.ExtTreeMap.getElem?_erase]
  simp only [Std.LawfulEqOrd.compare_eq_iff_eq]

theorem mem_toList {v : V} : (k, v) ∈ m.toList ↔ m[k]? = some v :=
  Std.ExtTreeMap.mem_toList_iff_getElem?_eq_some

/-- A new key adds its entry. -/
theorem toList_insert_new (h : m[k]? = none) :
    (m.insert k v).toList.Perm ((k, v) :: m.toList) := by
  classical
  refine (perm_ext_iff_of_nodup (toList_nodup _) ?_).mpr ?_
  · refine nodup_cons.mpr ⟨fun hm => ?_, toList_nodup m⟩
    rw [mem_toList, h] at hm
    cases hm
  · rintro ⟨a, b⟩
    rw [mem_cons, mem_toList, mem_toList, get_insert]
    by_cases hk : k = a
    · subst hk
      simp [h, eq_comm]
    · simp [hk, Ne.symm hk]

/-- A key already there exchanges its entry: the entries before and after
the insertion are those of the map without the key, and one more. -/
theorem toList_insert_old (h : m[k]? = some w) :
    m.toList.Perm ((k, w) :: (m.erase k).toList) ∧
      (m.insert k v).toList.Perm ((k, v) :: (m.erase k).toList) := by
  classical
  have hnone : (m.erase k)[k]? = none := by rw [get_erase, if_pos rfl]
  have hw : (m.erase k).insert k w = m := Std.ExtTreeMap.ext_getElem? fun a => by
    rw [get_insert, get_erase]
    split_ifs with hk
    · rw [← hk, h]
    · rfl
  have hv : (m.erase k).insert k v = m.insert k v := Std.ExtTreeMap.ext_getElem? fun a => by
    rw [get_insert, get_erase, get_insert]
    split_ifs <;> rfl
  refine ⟨?_, ?_⟩
  · have := toList_insert_new w hnone
    rwa [hw] at this
  · have := toList_insert_new v hnone
    rwa [hv] at this

theorem countOf_insert_new (p : K → V → Bool) (v : V) (h : m[k]? = none) :
    countOf (m.insert k v) p = countOf m p + (p k v).toNat := by
  unfold countOf
  rw [(toList_insert_new v h).countP_eq, countP_cons]
  cases p k v <;> rfl

theorem countOf_insert_old (p : K → V → Bool) (v : V) (h : m[k]? = some w) :
    countOf (m.insert k v) p + (p k w).toNat = countOf m p + (p k v).toNat := by
  obtain ⟨h1, h2⟩ := toList_insert_old v h
  unfold countOf
  rw [h1.countP_eq, h2.countP_eq, countP_cons, countP_cons]
  cases p k v <;> cases p k w <;> simp

theorem countOf_pos {v : V} (h : m[k]? = some v) (hp : p k v = true) :
    0 < countOf m p :=
  countP_pos_iff.mpr ⟨(k, v), mem_toList.mpr h, hp⟩

theorem countOf_eq_zero :
    countOf m p = 0 ↔ ∀ k v, m[k]? = some v → p k v = false := by
  unfold countOf
  rw [countP_eq_zero]
  constructor
  · intro h k v hk
    simpa using h (k, v) (mem_toList.mpr hk)
  · rintro h ⟨k, v⟩ hk
    simpa using h k v (mem_toList.mp hk)

theorem countOf_congr {p q : K → V → Bool} (h : ∀ k v, m[k]? = some v → p k v = q k v) :
    countOf m p = countOf m q :=
  countP_congr fun ⟨k, v⟩ hk => by
    show p k v = true ↔ q k v = true
    rw [h k v (mem_toList.mp hk)]

/-- Distinct keys whose entries have the property are no more than the
entries that have it. -/
theorem countP_keys_le_countOf {ks : List K} (hks : ks.Nodup) (p : V → Bool) :
    (ks.countP fun k => m[k]?.any p) ≤ countOf m fun _ v => p v := by
  rw [countOf, countP_eq_length_filter, countP_eq_length_filter]
  refine le_of_le_of_eq ?_ (length_map (f := Prod.fst))
  refine (subperm_of_subset (hks.filter _) fun k hk => ?_).length_le
  obtain ⟨v, hv, hp⟩ := (Option.any_eq_true _ _).mp (mem_filter.mp hk).2
  exact mem_map.mpr ⟨(k, v), mem_filter.mpr ⟨mem_toList.mpr hv, hp⟩, rfl⟩

end Maps

/-! ### Sets -/

section Sets

variable {K : Type} [Ord K] [Std.TransOrd K] {t : BTreeSet K}

theorem set_size_insert_new {k : K} (h : k ∉ t) : (t.insert k).size = t.size + 1 := by
  rw [Std.ExtTreeSet.size_insert, if_neg]
  simpa using h

variable [Std.LawfulEqOrd K]

theorem mem_insert_iff (k a : K) : a ∈ t.insert k ↔ a = k ∨ a ∈ t := by
  rw [Std.ExtTreeSet.mem_insert, Std.LawfulEqOrd.compare_eq_iff_eq, eq_comm]

theorem mem_erase_iff (k a : K) : a ∈ t.erase k ↔ a ≠ k ∧ a ∈ t := by
  rw [Std.ExtTreeSet.mem_erase, ne_eq, ne_eq, Std.LawfulEqOrd.compare_eq_iff_eq, eq_comm (a := k)]

end Sets

/-! ### Lists -/

/-- Writing an entry with the same key leaves the keys as they were. -/
theorem map_set_same {α β : Type} {f : α → β} {l : List α} {i : Nat} {a b : α}
    (hget : l[i]? = some a) (hsame : f b = f a) : (l.set i b).map f = l.map f := by
  refine ext_getElem? fun j => ?_
  rw [getElem?_map, getElem?_map, getElem?_set]
  by_cases hj : i = j
  · subst hj
    rw [if_pos rfl, if_pos (List.getElem?_eq_some_iff.mp hget).1, hget]
    exact congrArg some hsame
  · rw [if_neg hj]

end Termivar
