/-
# Lists sorted by a key

A vector kept in strictly increasing key order, with `binary_search_by` for
the place of a key: the index of the entry that has it, or the index where it
belongs. Writing at that index (`put`) keeps the order and changes the entry
of that key alone, so the list is determined by which entries it has.
-/
import Mathlib

namespace Termivar.SortedList

open List

variable {α K : Type} [LinearOrder K] {key : α → K}

/-- The keys increase strictly. -/
def Sorted (key : α → K) (entries : List α) : Prop := entries.Pairwise fun x y => key x < key y

/-- `binary_search_by` on a sorted list: the index of the entry with the key,
or else the index where it would go. -/
def searchByKey (key : α → K) (k : K) (entries : List α) : Except Nat Nat :=
  let index := (entries.takeWhile fun x => key x < k).length
  if entries[index]?.any fun x => key x = k then .ok index else .error index

/-- The entry of the key is exchanged, or put where it belongs. -/
def put (key : α → K) (x : α) (entries : List α) : List α :=
  match searchByKey key (key x) entries with
  | .ok index => entries.set index x
  | .error index => entries.insertIdx index x

/-- The entries below the key, and the rest. -/
theorem split_at_key (key : α → K) (k : K) (entries : List α) : ∃ front back,
    entries = front ++ back ∧
    (entries.takeWhile fun x => key x < k) = front ∧ (∀ x ∈ front, key x < k) ∧
    ∀ y rest, back = y :: rest → ¬ key y < k := by
  refine ⟨_, entries.dropWhile fun x => key x < k, takeWhile_append_dropWhile.symm, rfl,
    fun x hx => ?_, fun y rest hback => ?_⟩
  · simpa using mem_takeWhile_imp hx
  · have hne : entries.dropWhile (fun x => decide (key x < k)) ≠ [] := by
      rw [hback]
      exact cons_ne_nil _ _
    have hhead := head_dropWhile_not (fun x => decide (key x < k)) hne
    simp only [hback, head_cons, decide_eq_false_iff_not] at hhead
    exact hhead

/-- A key above all entries belongs at the end. -/
theorem searchByKey_of_lt {k : K} {entries : List α} (h : ∀ x ∈ entries, key x < k) :
    searchByKey key k entries = .error entries.length := by
  have htake : (entries.takeWhile fun x => key x < k) = entries := by
    rw [takeWhile_eq_self_iff]
    simpa using h
  simp [searchByKey, htake]

/-- A sorted list around a key: either an entry has it, or none does. -/
theorem search_cases (k : K) {entries : List α} (h : Sorted key entries) :
    (∃ front y rest, entries = front ++ y :: rest ∧ key y = k ∧
      searchByKey key k entries = .ok front.length) ∨
    (∃ front back, entries = front ++ back ∧ (∀ x ∈ front, key x < k) ∧ (∀ x ∈ back, k < key x) ∧
      searchByKey key k entries = .error front.length) := by
  obtain ⟨front, back, hspl, htake, hfr, hback⟩ := split_at_key key k entries
  have hget : entries[front.length]? = back.head? := by
    rw [hspl, getElem?_append_right (Nat.le_refl _), Nat.sub_self, head?_eq_getElem?]
  have hsearch : searchByKey key k entries =
      if back.head?.any fun x => key x = k then .ok front.length else .error front.length := by
    simp only [searchByKey, htake, hget]
  cases back with
  | nil =>
    refine Or.inr ⟨front, [], hspl, hfr, by simp, ?_⟩
    rw [hsearch]
    rfl
  | cons y rest =>
    by_cases hy : key y = k
    · refine Or.inl ⟨front, y, rest, hspl, hy, ?_⟩
      rw [hsearch]
      simp [hy]
    · have hlt : k < key y := lt_of_le_of_ne (not_lt.mp (hback y rest rfl)) (Ne.symm hy)
      refine Or.inr ⟨front, y :: rest, hspl, hfr, fun x hx => ?_, ?_⟩
      · rcases mem_cons.mp hx with rfl | hx
        · exact hlt
        · have hpair : Sorted key (y :: rest) :=
            (pairwise_append.mp (hspl ▸ h)).2.1
          exact lt_trans hlt ((pairwise_cons.mp hpair).1 x hx)
      · rw [hsearch]
        simp [hy]

theorem insertIdx_length_append (front back : List α) (x : α) :
    (front ++ back).insertIdx front.length x = front ++ x :: back := by
  induction front with
  | nil => simp
  | cons y front ih => simp [ih]

/-- What `put` makes of a sorted list. -/
theorem put_cases (x : α) {entries : List α} (h : Sorted key entries) :
    (∃ front y rest, entries = front ++ y :: rest ∧ key y = key x ∧
      put key x entries = front ++ x :: rest) ∨
    (∃ front back, entries = front ++ back ∧ (∀ y ∈ front, key y < key x) ∧
      (∀ y ∈ back, key x < key y) ∧ put key x entries = front ++ x :: back) := by
  rcases search_cases (key x) h with ⟨front, y, rest, hspl, hy, hs⟩ |
    ⟨front, back, hspl, hfr, hback, hs⟩
  · refine Or.inl ⟨front, y, rest, hspl, hy, ?_⟩
    unfold put
    rw [hs]
    simp [hspl]
  · refine Or.inr ⟨front, back, hspl, hfr, hback, ?_⟩
    unfold put
    rw [hs]
    rw [hspl]
    exact insertIdx_length_append front back x

theorem sorted_put (x : α) {entries : List α} (h : Sorted key entries) :
    Sorted key (put key x entries) := by
  rcases put_cases x h with ⟨front, y, rest, hspl, hy, hput⟩ | ⟨front, back, hspl, hfr, hback, hput⟩
  · rw [hput]
    unfold Sorted at h ⊢
    rw [hspl, pairwise_append, pairwise_cons] at h
    rw [pairwise_append, pairwise_cons]
    refine ⟨h.1, ⟨fun z hz => hy ▸ h.2.1.1 z hz, h.2.1.2⟩, fun a ha b hb => ?_⟩
    rcases mem_cons.mp hb with rfl | hb
    · exact hy ▸ h.2.2 a ha y mem_cons_self
    · exact h.2.2 a ha b (mem_cons_of_mem _ hb)
  · rw [hput]
    unfold Sorted at h ⊢
    rw [hspl, pairwise_append] at h
    rw [pairwise_append, pairwise_cons]
    refine ⟨h.1, ⟨hback, h.2.1⟩, fun a ha b hb => ?_⟩
    rcases mem_cons.mp hb with rfl | hb
    · exact hfr a ha
    · exact h.2.2 a ha b hb

/-- Keys tell the entries of a sorted list apart. -/
theorem key_ne_of_append {front back : List α} {x : α} (h : Sorted key (front ++ x :: back))
    {y : α} (hy : y ∈ front ∨ y ∈ back) : key y ≠ key x := by
  obtain ⟨-, hcons, hcross⟩ := pairwise_append.mp h
  rcases hy with hy | hy
  · exact ne_of_lt (hcross y hy x mem_cons_self)
  · exact ne_of_gt ((pairwise_cons.mp hcons).1 y hy)

/-- `put` writes the entry of its key and leaves every other entry. -/
theorem mem_put (x : α) {entries : List α} (h : Sorted key entries) (y : α) :
    y ∈ put key x entries ↔ y = x ∨ (y ∈ entries ∧ key y ≠ key x) := by
  have hput := sorted_put x h
  rcases put_cases x h with ⟨front, z, rest, hspl, hz, heq⟩ | ⟨front, back, hspl, hfr, hback, heq⟩
  · rw [heq] at hput ⊢
    have hkeys : y ∈ front ∨ y ∈ rest → key y ≠ key x := key_ne_of_append hput
    have hold : y ∈ entries ↔ y ∈ front ∨ y = z ∨ y ∈ rest := by simp [hspl]
    have hnew : y ∈ front ++ x :: rest ↔ y ∈ front ∨ y = x ∨ y ∈ rest := by simp
    rw [hold, hnew]
    constructor
    · intro hy
      rcases hy with hy | hy | hy
      · exact Or.inr ⟨Or.inl hy, hkeys (Or.inl hy)⟩
      · exact Or.inl hy
      · exact Or.inr ⟨Or.inr (Or.inr hy), hkeys (Or.inr hy)⟩
    · intro hy
      rcases hy with hy | ⟨hy | hy | hy, hne⟩
      · exact Or.inr (Or.inl hy)
      · exact Or.inl hy
      · exact absurd (hy ▸ hz) hne
      · exact Or.inr (Or.inr hy)
  · rw [heq] at hput ⊢
    have hkeys : y ∈ front ∨ y ∈ back → key y ≠ key x := key_ne_of_append hput
    have hold : y ∈ entries ↔ y ∈ front ∨ y ∈ back := by simp [hspl]
    have hnew : y ∈ front ++ x :: back ↔ y ∈ front ∨ y = x ∨ y ∈ back := by simp
    rw [hold, hnew]
    tauto

/-- Sorted lists with the same entries are the same list. -/
theorem eq_of_mem_iff {entries others : List α} (h : Sorted key entries) (ho : Sorted key others)
    (hmem : ∀ x, x ∈ entries ↔ x ∈ others) : entries = others := by
  have hirrefl : Std.Irrefl fun x y : α => key x < key y := ⟨fun x => lt_irrefl (key x)⟩
  have hant : Std.Antisymm fun x y : α => key x < key y :=
    ⟨fun x y hxy hyx => absurd hyx (lt_asymm hxy)⟩
  exact List.Pairwise.eq_of_mem_iff h ho hmem

end Termivar.SortedList
