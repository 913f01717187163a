/-
# First elements of an ordered set

An ordered set or map of bounded size: what is inserted goes to its place, and
where the bound is passed the last element is taken out. Whatever the order of
the insertions, the set is the first elements of all that were inserted
(`collect_eq`), and the map has the first keys with everything that came for
them (`Holds.entries_eq`): a key that was taken out has
as many keys before it as the map may hold, and never comes back.

An ordered set is the list of its elements, an ordered map that of its entries.
-/
import Mathlib

namespace Termivar.SortedPrefix

open List

variable {K : Type} [LinearOrder K]

/-! ### Sorted lists -/

/-- `BTreeSet::insert`. -/
def insertSorted (x : K) : List K → List K
  | [] => [x]
  | y :: ys => if x < y then x :: y :: ys else if y < x then y :: insertSorted x ys else y :: ys

theorem mem_insertSorted {x z : K} : ∀ {l : List K}, z ∈ insertSorted x l ↔ z = x ∨ z ∈ l
  | [] => by simp [insertSorted]
  | y :: ys => by
    unfold insertSorted
    split_ifs with hlt hgt
    · exact mem_cons
    · rw [mem_cons, mem_insertSorted, mem_cons]
      exact or_left_comm
    · obtain rfl : x = y := le_antisymm (not_lt.mp hgt) (not_lt.mp hlt)
      rw [mem_cons]
      exact ⟨.inr, fun h => h.elim .inl id⟩

theorem pairwise_insertSorted (x : K) : ∀ {l : List K}, l.Pairwise (· < ·) →
    (insertSorted x l).Pairwise (· < ·)
  | [], _ => pairwise_singleton _ _
  | y :: ys, h => by
    obtain ⟨hfirst, hrest⟩ := pairwise_cons.mp h
    unfold insertSorted
    split_ifs with hlt hgt
    · exact pairwise_cons.mpr ⟨forall_mem_cons.mpr ⟨hlt, fun z hz => hlt.trans (hfirst z hz)⟩, h⟩
    · refine pairwise_cons.mpr ⟨fun z hz => ?_, pairwise_insertSorted x hrest⟩
      rcases mem_insertSorted.mp hz with rfl | hz
      · exact hgt
      · exact hfirst z hz
    · exact h

theorem sort_pairwise (s : Finset K) : s.sort.Pairwise (· < ·) :=
  s.sortedLT_sort.pairwise

/-- Lists in strictly ascending order with the same elements are the same. -/
theorem eq_of_mem_iff {l l' : List K} (h : l.Pairwise (· < ·)) (h' : l'.Pairwise (· < ·))
    (hmem : ∀ x, x ∈ l ↔ x ∈ l') : l = l' := by
  have hnd {l : List K} (h : l.Pairwise (· < ·)) : l.Nodup := h.imp ne_of_lt
  refine List.Perm.eq_of_pairwise (fun a b _ _ hab hba => absurd hab hba.not_gt) h h' ?_
  exact (perm_ext_iff_of_nodup (hnd h) (hnd h')).mpr hmem

theorem insertSorted_sort (x : K) (s : Finset K) : insertSorted x s.sort = (insert x s).sort := by
  refine eq_of_mem_iff (pairwise_insertSorted x (sort_pairwise s)) (sort_pairwise _) fun z => ?_
  rw [mem_insertSorted, Finset.mem_sort, Finset.mem_sort, Finset.mem_insert]

/-- **What was left out stays out.** -/
theorem take_insertSorted (x : K) : ∀ (n : Nat) (l : List K),
    (insertSorted x (l.take n)).take n = (insertSorted x l).take n
  | 0, l => by rw [take_zero, take_zero]
  | n + 1, [] => rfl
  | n + 1, y :: ys => by
    rw [take_succ_cons]
    unfold insertSorted
    split_ifs with hlt hgt
    · cases n with
      | zero => rfl
      | succ n => simp [take_take]
    · rw [take_succ_cons, take_succ_cons, take_insertSorted x n ys]
    · rw [take_succ_cons, take_succ_cons, take_take, Nat.min_self]

theorem mem_take_iff : ∀ {l : List K} {n : Nat} {x : K}, l.Pairwise (· < ·) →
    (x ∈ l.take n ↔ x ∈ l ∧ (l.filter (· < x)).length < n)
  | [], n, x, _ => by simp
  | y :: ys, 0, x, _ => by simp
  | y :: ys, n + 1, x, h => by
    obtain ⟨hfirst, hrest⟩ := pairwise_cons.mp h
    rw [take_succ_cons, mem_cons, mem_cons, mem_take_iff hrest]
    by_cases hx : x = y
    · subst hx
      have hbel : ((x :: ys).filter (· < x)).length = 0 := by
        rw [length_eq_zero_iff, filter_eq_nil_iff]
        intro z hz
        rcases mem_cons.mp hz with rfl | hz
        · simp
        · simpa using (hfirst z hz).le
      exact iff_of_true (.inl rfl) ⟨.inl rfl, hbel ▸ Nat.succ_pos n⟩
    · rw [or_iff_right hx, or_iff_right hx]
      refine and_congr_right fun hmem => ?_
      rw [filter_cons_of_pos (by simpa using hfirst x hmem), length_cons, Nat.succ_lt_succ_iff]

variable {cap : Nat} {x : K}

/-- The first elements are those with few elements below them. -/
theorem mem_take_sort {s : Finset K} {n : Nat} :
    x ∈ s.sort.take n ↔ x ∈ s ∧ (s.filter (· < x)).card < n := by
  have hcard : (s.sort.filter (· < x)).length = (s.filter (· < x)).card := by
    rw [← toFinset_card_of_nodup ((Finset.sort_nodup s (· ≤ ·)).filter _), toFinset_filter,
      Finset.sort_toFinset]
    simp
  rw [mem_take_iff (sort_pairwise s), Finset.mem_sort, hcard]

/-- What was left out of a part is left out of the whole. -/
theorem take_sort_union (s t : Finset K) (n : Nat) :
    (s ∪ (t.sort.take n).toFinset).sort.take n = (s ∪ t).sort.take n := by
  have hsubset : (t.sort.take n).toFinset ⊆ t := fun z hz =>
    (Finset.mem_sort (· ≤ ·)).mp (mem_of_mem_take (mem_toFinset.mp hz))
  refine eq_of_mem_iff ((sort_pairwise _).sublist (take_sublist _ _))
    ((sort_pairwise _).sublist (take_sublist _ _)) fun x => ?_
  rw [mem_take_sort, mem_take_sort]
  constructor
  · rintro ⟨hx, hbel⟩
    refine ⟨Finset.union_subset_union_right hsubset hx,
      (Finset.card_le_card fun y hy => ?_).trans_lt hbel⟩
    rw [Finset.mem_filter] at hy ⊢
    refine ⟨?_, hy.2⟩
    rcases Finset.mem_union.mp hy.1 with hs | ht
    · exact Finset.mem_union_left _ hs
    · -- were `y` left out, the first elements would all be below it, and `x` have no place
      by_contra hout
      have hleft : y ∉ t.sort.take n := fun hmem =>
        hout (Finset.mem_union_right _ (mem_toFinset.mpr hmem))
      have hcrow : n ≤ (t.filter (· < y)).card := by
        by_contra hfew
        exact hleft (mem_take_sort.mpr ⟨ht, Nat.lt_of_not_le hfew⟩)
      have hfirst : (t.sort.take n).toFinset ⊆
          (s ∪ (t.sort.take n).toFinset).filter (· < x) := by
        intro z hz
        rw [Finset.mem_filter]
        refine ⟨Finset.mem_union_right _ hz, lt_of_not_ge fun hxz => ?_⟩
        have hz' := mem_take_sort.mp (mem_toFinset.mp hz)
        refine absurd (hcrow.trans (Finset.card_le_card fun w hw => ?_)) (Nat.not_le_of_lt hz'.2)
        rw [Finset.mem_filter] at hw ⊢
        exact ⟨hw.1, hw.2.trans (hy.2.trans_le hxz)⟩
      have hcard : (t.sort.take n).toFinset.card = n := by
        rw [toFinset_card_of_nodup ((Finset.sort_nodup t _).sublist (take_sublist _ _)),
          length_take, Finset.length_sort]
        exact Nat.min_eq_left (hcrow.trans (Finset.card_filter_le _ _))
      exact absurd (Finset.card_le_card hfirst) (by omega)
  · rintro ⟨hx, hbel⟩
    refine ⟨?_, (Finset.card_le_card fun y hy => ?_).trans_lt hbel⟩
    · rcases Finset.mem_union.mp hx with hs | ht
      · exact Finset.mem_union_left _ hs
      · refine Finset.mem_union_right _ (mem_toFinset.mpr (mem_take_sort.mpr ⟨ht, ?_⟩))
        refine (Finset.card_le_card fun y hy => ?_).trans_lt hbel
        rw [Finset.mem_filter] at hy ⊢
        exact ⟨Finset.mem_union_right _ hy.1, hy.2⟩
    · rw [Finset.mem_filter] at hy ⊢
      exact ⟨Finset.union_subset_union_right hsubset hy.1, hy.2⟩

/-! ### Bounded sets -/

/-- An insertion, after which the last of too many elements is taken out. -/
def insertBounded (cap : Nat) (x : K) (l : List K) : List K × Bool :=
  let l := insertSorted x l
  if l.length > cap then (l.dropLast, true) else (l, false)

/-- The elements of a list in turn, and whether one was taken out. -/
def collect (cap : Nat) : List K → List K → List K × Bool
  | [], l => (l, false)
  | x :: xs, l =>
    let (inserted, dropped) := insertBounded cap x l
    let (collected, droppedLater) := collect cap xs inserted
    (collected, dropped || droppedLater)

theorem length_insertSorted_le (x : K) : ∀ l : List K, (insertSorted x l).length ≤ l.length + 1
  | [] => le_rfl
  | y :: ys => by
    unfold insertSorted
    split_ifs
    · exact le_rfl
    · exact Nat.succ_le_succ (length_insertSorted_le x ys)
    · exact Nat.le_succ _

/-- One too many, and the last is taken out. -/
theorem dropLast_of_length {α : Type} {l : List α} (h : l.length ≤ cap + 1) :
    (if l.length > cap then l.dropLast else l) = l.take cap := by
  split_ifs with hcap
  · have hfull : l.length - 1 = cap := by omega
    rw [dropLast_eq_take, hfull]
  · exact (take_of_length_le (Nat.le_of_not_gt hcap)).symm

theorem insertBounded_fst (x : K) {l : List K} (h : l.length ≤ cap) :
    (insertBounded cap x l).1 = (insertSorted x l).take cap := by
  rw [← dropLast_of_length ((length_insertSorted_le x l).trans (Nat.succ_le_succ h)), insertBounded,
    apply_ite Prod.fst]

theorem insertBounded_snd {l : List K} :
    (insertBounded cap x l).2 = true ↔ cap < (insertSorted x l).length := by
  unfold insertBounded
  dsimp only
  split_ifs with hcap
  · exact iff_of_true rfl hcap
  · exact iff_of_false (by simp) hcap

/-- The elements of the set after the first, `cap` at most of them all. -/
theorem insertBounded_sort (cap : Nat) (x : K) (s : Finset K) :
    (insertBounded cap x (s.sort.take cap)).1 = (insert x s).sort.take cap := by
  rw [insertBounded_fst x (length_take_le _ _), take_insertSorted, insertSorted_sort]

/-- What is taken out is one too many. -/
theorem lt_card_of_insertBounded {s : Finset K}
    (h : (insertBounded cap x (s.sort.take cap)).2 = true) : cap < (insert x s).card := by
  have hlength := insertBounded_snd.mp h
  refine hlength.trans_le ?_
  have hsubset : (insertSorted x (s.sort.take cap)).toFinset ⊆ insert x s := by
    intro z hz
    rw [mem_toFinset, mem_insertSorted] at hz
    rw [Finset.mem_insert]
    exact hz.imp_right fun hz => (Finset.mem_sort (· ≤ ·)).mp (mem_of_mem_take hz)
  have hnd : (insertSorted x (s.sort.take cap)).Nodup :=
    (pairwise_insertSorted x ((sort_pairwise s).sublist (take_sublist _ _))).imp ne_of_lt
  rw [← toFinset_card_of_nodup hnd]
  exact Finset.card_le_card hsubset

theorem insertBounded_of_lt_card {s : Finset K} (hs : s.card ≤ cap)
    (h : cap < (insert x s).card) : (insertBounded cap x (s.sort.take cap)).2 = true := by
  rw [insertBounded_snd, take_of_length_le (by rwa [Finset.length_sort]), insertSorted_sort,
    Finset.length_sort]
  exact h

/-- **A bounded set is the first elements of all that came.** -/
theorem collect_eq (cap : Nat) : ∀ (xs : List K) (s : Finset K),
    (collect cap xs (s.sort.take cap)).1 = (s ∪ xs.toFinset).sort.take cap
  | [], s => by simp [collect]
  | x :: xs, s => by
    simp only [collect]
    rw [insertBounded_sort, collect_eq cap xs, toFinset_cons, Finset.insert_union,
      Finset.union_insert]

/-- An element is taken out only of too many. -/
theorem lt_card_of_collect {cap : Nat} : ∀ {xs : List K} {s : Finset K},
    (collect cap xs (s.sort.take cap)).2 = true → cap < (s ∪ xs.toFinset).card
  | [], s, h => by cases h
  | x :: xs, s, h => by
    simp only [collect, insertBounded_sort, Bool.or_eq_true] at h
    have hunion : s ∪ (x :: xs).toFinset = insert x s ∪ xs.toFinset := by
      rw [toFinset_cons, Finset.insert_union, Finset.union_insert]
    rw [hunion]
    rcases h with h | h
    · exact (lt_card_of_insertBounded h).trans_le (Finset.card_le_card Finset.subset_union_left)
    · exact lt_card_of_collect h

/-- Of too many an element is taken out, if none was before. -/
theorem collect_of_lt_card {cap : Nat} : ∀ {xs : List K} {s : Finset K}, s.card ≤ cap →
    cap < (s ∪ xs.toFinset).card → (collect cap xs (s.sort.take cap)).2 = true
  | [], s, hs, h => by
    rw [toFinset_nil, Finset.union_empty] at h
    omega
  | x :: xs, s, hs, h => by
    simp only [collect, insertBounded_sort, Bool.or_eq_true]
    by_cases hx : cap < (insert x s).card
    · exact .inl (insertBounded_of_lt_card hs hx)
    · refine .inr (collect_of_lt_card (Nat.le_of_not_lt hx) ?_)
      rwa [toFinset_cons, Finset.union_insert, ← Finset.insert_union] at h

/-! ### Bounded maps -/

section Maps

variable {V W : Type}

def lookup (key : K) (entries : List (K × V)) : Option V :=
  (entries.find? fun entry => entry.1 = key).map Prod.snd

/-- A write through `get_mut`. -/
def modify (key : K) (update : V → V) (entries : List (K × V)) : List (K × V) :=
  entries.map fun entry => if entry.1 = key then (entry.1, update entry.2) else entry

/-- `BTreeMap::insert` of a new key. -/
def insertEntry (key : K) (value : V) : List (K × V) → List (K × V)
  | [] => [(key, value)]
  | entry :: entries =>
    if key < entry.1 then (key, value) :: entry :: entries
    else entry :: insertEntry key value entries

variable (limit : Nat) (fresh : W → V) (add : V → W → V)

/-- One more value for a key: it is added to what there is, or begins a new
entry; of too many entries the last is taken out. -/
def put (entries : List (K × V)) (part : K × W) : List (K × V) :=
  match lookup part.1 entries with
  | some _ => modify part.1 (add · part.2) entries
  | none =>
    if limit = 0 then entries
    else
      let entries := insertEntry part.1 (fresh part.2) entries
      if entries.length > limit then entries.dropLast else entries

def entriesOf (parts : List (K × W)) : List (K × V) := parts.foldl (put limit fresh add) []

/-- The keys of the parts. -/
def keys (parts : List (K × W)) : Finset K := (parts.map Prod.fst).toFinset

/-- What came for a key. -/
def valuesOf (key : K) (parts : List (K × W)) : List W :=
  (parts.filter fun part => part.1 = key).map Prod.snd

/-- All that came for a key, added up. -/
def total : List W → Option V
  | [] => none
  | value :: values => some (values.foldl add (fresh value))

variable {limit fresh add} {key : K} {value : V} {entries : List (K × V)} {parts : List (K × W)}

theorem lookup_eq_some (h : (entries.map Prod.fst).Nodup) :
    lookup key entries = some value ↔ (key, value) ∈ entries := by
  unfold lookup
  constructor
  · intro hfnd
    obtain ⟨⟨found, held⟩, hfind, rfl⟩ := Option.map_eq_some_iff.mp hfnd
    have hkey : found = key := by simpa using find?_some hfind
    exact hkey ▸ mem_of_find?_eq_some hfind
  · intro hmem
    cases hfind : entries.find? fun entry => entry.1 = key with
    | none => exact absurd (decide_eq_true rfl) (find?_eq_none.mp hfind (key, value) hmem)
    | some entry =>
      have hkey : entry.1 = key := by simpa using find?_some hfind
      rw [inj_on_of_nodup_map h (mem_of_find?_eq_some hfind) hmem hkey]
      rfl

theorem lookup_eq_none : lookup key entries = none ↔ key ∉ entries.map Prod.fst := by
  rw [lookup, Option.map_eq_none_iff, find?_eq_none, mem_map]
  constructor
  · rintro h ⟨entry, hmem, rfl⟩
    exact h entry hmem (decide_eq_true rfl)
  · intro h entry hmem hkey
    exact h ⟨entry, hmem, of_decide_eq_true hkey⟩

theorem map_fst_modify (key : K) (update : V → V) (entries : List (K × V)) :
    (modify key update entries).map Prod.fst = entries.map Prod.fst := by
  rw [modify, map_map]
  refine map_congr_left fun entry _ => ?_
  by_cases hkey : entry.1 = key <;> simp [hkey]

theorem map_fst_insertEntry : ∀ {entries : List (K × V)}, key ∉ entries.map Prod.fst →
    (insertEntry key value entries).map Prod.fst = insertSorted key (entries.map Prod.fst)
  | [], _ => rfl
  | entry :: entries, h => by
    rw [map_cons, mem_cons, not_or] at h
    unfold insertEntry insertSorted
    by_cases hlt : key < entry.1
    · simp [hlt]
    · have hgt : entry.1 < key := lt_of_le_of_ne (not_lt.mp hlt) (Ne.symm h.1)
      simp only [hlt, hgt, if_true, if_false, map_cons, map_fst_insertEntry h.2]

theorem length_insertEntry (key : K) (value : V) : ∀ entries : List (K × V),
    (insertEntry key value entries).length = entries.length + 1
  | [] => rfl
  | entry :: entries => by
    unfold insertEntry
    split_ifs
    · rfl
    · exact congrArg Nat.succ (length_insertEntry key value entries)

theorem mem_insertEntry {entry : K × V} : ∀ {entries : List (K × V)},
    entry ∈ insertEntry key value entries ↔ entry = (key, value) ∨ entry ∈ entries
  | [] => by simp [insertEntry]
  | first :: entries => by
    unfold insertEntry
    split_ifs
    · exact mem_cons
    · rw [mem_cons, mem_insertEntry, mem_cons]
      exact or_left_comm

/-! ### What a bounded map holds -/

/-- The keys are the first of those seen, and each has what came for it. -/
structure Holds (limit : Nat) (fresh : W → V) (add : V → W → V) (parts : List (K × W))
    (entries : List (K × V)) : Prop where
  keys_eq : entries.map Prod.fst = (keys parts).sort.take limit
  total_eq : ∀ entry ∈ entries, total fresh add (valuesOf entry.1 parts) = some entry.2

theorem keys_concat (parts : List (K × W)) (part : K × W) :
    keys (parts ++ [part]) = insert part.1 (keys parts) := by
  simp [keys, Finset.union_comm]

theorem valuesOf_concat (key : K) (parts : List (K × W)) (part : K × W) :
    valuesOf key (parts ++ [part]) =
      valuesOf key parts ++ if part.1 = key then [part.2] else [] := by
  by_cases hkey : part.1 = key <;> simp [valuesOf, hkey]

variable {P : V → W → Prop} {values : List W}

theorem total_concat {sum : V} (h : total fresh add values = some sum) (more : W) :
    total fresh add (values ++ [more]) = some (add sum more) := by
  cases values with
  | nil => cases h
  | cons first rest =>
    cases h
    simp [total]

theorem valuesOf_eq_nil (h : key ∉ keys parts) : valuesOf key parts = [] := by
  rw [valuesOf, map_eq_nil_iff, filter_eq_nil_iff]
  intro part hpart hkey
  refine h (mem_toFinset.mpr (mem_map.mpr ⟨part, hpart, of_decide_eq_true hkey⟩))

theorem Holds.nodup (h : Holds limit fresh add parts entries) : (entries.map Prod.fst).Nodup := by
  rw [h.keys_eq]
  exact (Finset.sort_nodup _ _).sublist (take_sublist _ _)

/-- **One more value, and the map still holds the first keys and all that came for
them.** -/
theorem Holds.put (h : Holds limit fresh add parts entries) (part : K × W) :
    Holds limit fresh add (parts ++ [part]) (put limit fresh add entries part) := by
  obtain ⟨key, value⟩ := part
  unfold SortedPrefix.put
  cases hlook : lookup key entries with
  | some held =>
    have hmem := (lookup_eq_some h.nodup).mp hlook
    have hkeys : key ∈ keys parts := by
      have hkey : key ∈ entries.map Prod.fst := mem_map.mpr ⟨_, hmem, rfl⟩
      rw [h.keys_eq] at hkey
      exact (Finset.mem_sort (· ≤ ·)).mp (mem_of_mem_take hkey)
    refine ⟨?_, fun entry hent => ?_⟩
    · rw [map_fst_modify, h.keys_eq, keys_concat, Finset.insert_eq_of_mem hkeys]
    · obtain ⟨old, hold, rfl⟩ := mem_map.mp hent
      rw [valuesOf_concat]
      by_cases hkey : old.1 = key
      · rw [if_pos hkey, if_pos hkey.symm]
        exact total_concat (h.total_eq old hold) value
      · rw [if_neg hkey, if_neg (Ne.symm hkey), append_nil]
        exact h.total_eq old hold
  | none =>
    have hnew := lookup_eq_none.mp hlook
    dsimp only
    by_cases hzero : limit = 0
    · rw [if_pos hzero]
      subst hzero
      have hemp : entries = [] := by
        simpa using h.keys_eq
      subst hemp
      exact ⟨by simp, by simp⟩
    · rw [if_neg hzero]
      have hlength : (insertEntry key (fresh value) entries).length ≤ limit + 1 := by
        have hkeys : entries.length = ((keys parts).sort.take limit).length := by
          rw [← h.keys_eq, length_map]
        rw [length_insertEntry, hkeys]
        exact Nat.succ_le_succ (length_take_le _ _)
      rw [dropLast_of_length hlength]
      have hkeys : ((insertEntry key (fresh value) entries).take limit).map Prod.fst =
          (keys (parts ++ [(key, value)])).sort.take limit := by
        rw [map_take, map_fst_insertEntry hnew, h.keys_eq, take_insertSorted, insertSorted_sort,
          keys_concat]
      refine ⟨hkeys, fun entry hent => ?_⟩
      have hkept : entry.1 ∈ (keys (parts ++ [(key, value)])).sort.take limit :=
        hkeys ▸ mem_map_of_mem hent
      rw [valuesOf_concat]
      rcases mem_insertEntry.mp (mem_of_mem_take hent) with rfl | hold
      · -- a key that was taken out before is taken out again
        have hunseen : key ∉ keys parts := by
          intro hseen
          rw [keys_concat, Finset.insert_eq_of_mem hseen, ← h.keys_eq] at hkept
          exact hnew hkept
        rw [valuesOf_eq_nil hunseen, if_pos rfl]
        rfl
      · have hoth : entry.1 ≠ key := fun hkey => hnew (hkey ▸ mem_map_of_mem hold)
        rw [if_neg hoth.symm, append_nil]
        exact h.total_eq entry hold

theorem holds_entriesOf (limit : Nat) (fresh : W → V) (add : V → W → V) (parts : List (K × W)) :
    Holds limit fresh add parts (entriesOf limit fresh add parts) := by
  induction parts using reverseRecOn with
  | nil => exact ⟨by simp [entriesOf, keys], by simp [entriesOf]⟩
  | append_singleton parts part ih =>
    rw [entriesOf, foldl_append]
    exact ih.put part

/-- A map in closed form. -/
theorem Holds.entries_eq (h : Holds limit fresh add parts entries) {sum : K → V}
    (hsum : ∀ key ∈ keys parts, total fresh add (valuesOf key parts) = some (sum key)) :
    entries = ((keys parts).sort.take limit).map fun key => (key, sum key) := by
  rw [← h.keys_eq, map_map]
  refine (map_id entries).symm.trans (map_congr_left fun entry hent => ?_)
  have hkey : entry.1 ∈ keys parts := by
    have hmem := mem_map_of_mem (f := Prod.fst) hent
    rw [h.keys_eq] at hmem
    exact (Finset.mem_sort _).mp (mem_of_mem_take hmem)
  exact Prod.ext rfl (Option.some.inj ((h.total_eq entry hent).symm.trans (hsum entry.1 hkey)))

/-! ### When something is taken out -/

/-- A new entry finds the map full. -/
def crowds (limit : Nat) (entries : List (K × V)) (key : K) : Bool :=
  (lookup key entries).isNone && decide (limit ≤ entries.length)

/-- **There is no room for a new entry exactly if there are too many keys.** -/
theorem crowds_iff (h : Holds limit fresh add parts entries) (key : K) :
    limit < (keys parts).card ∨ crowds limit entries key = true ↔
      limit < (insert key (keys parts)).card := by
  have hlength : entries.length = min limit (keys parts).card := by
    rw [← Finset.length_sort (· ≤ ·), ← length_take, ← h.keys_eq, length_map]
  have hkept : (lookup key entries).isNone = true ↔ key ∉ (keys parts).sort.take limit := by
    rw [Option.isNone_iff_eq_none, lookup_eq_none, h.keys_eq]
  rw [crowds, Bool.and_eq_true, decide_eq_true_eq, hkept, hlength]
  by_cases hseen : key ∈ keys parts
  · rw [Finset.insert_eq_of_mem hseen, or_iff_left_iff_imp]
    rintro ⟨hnot, hfull⟩
    refine lt_of_not_ge fun hcard => hnot ?_
    rw [take_of_length_le (by rwa [Finset.length_sort])]
    exact (Finset.mem_sort _).mpr hseen
  · have hnot : key ∉ (keys parts).sort.take limit := fun hmem =>
      hseen ((Finset.mem_sort (· ≤ ·)).mp (mem_of_mem_take hmem))
    rw [Finset.card_insert_of_notMem hseen]
    simp only [hnot, not_false_iff, true_and]
    omega

theorem entriesOf_concat (parts : List (K × W)) (part : K × W) :
    entriesOf limit fresh add (parts ++ [part]) =
      put limit fresh add (entriesOf limit fresh add parts) part := by
  rw [entriesOf, foldl_append]
  rfl

/-- A flag for too many keys, after one more value. -/
theorem crowds_concat {full : Bool} (hfull : full = true ↔ limit < (keys parts).card)
    (part : K × W) :
    (full || crowds limit (entriesOf limit fresh add parts) part.1) = true ↔
      limit < (keys (parts ++ [part])).card := by
  rw [Bool.or_eq_true, hfull, crowds_iff (holds_entriesOf limit fresh add parts), keys_concat]

theorem any_lookup {P : V → Bool} : (lookup key (entriesOf limit fresh add parts)).any P = true ↔
    ∃ held, (key, held) ∈ entriesOf limit fresh add parts ∧ P held = true := by
  rw [Option.any_eq_true]
  simp only [lookup_eq_some (holds_entriesOf limit fresh add parts).nodup]

/-- Some value is added to one with which it meets the condition. -/
def Meets (limit : Nat) (fresh : W → V) (add : V → W → V) (P : V → W → Prop)
    (parts : List (K × W)) : Prop :=
  ∃ before part after held, parts = before ++ part :: after ∧
    (part.1, held) ∈ entriesOf limit fresh add before ∧ P held part.2

theorem meets_nil : ¬Meets limit fresh add P ([] : List (K × W)) := by
  rintro ⟨before, part, after, held, hpar, -⟩
  exact absurd hpar (by simp)

theorem meets_concat {part : K × W} :
    Meets limit fresh add P (parts ++ [part]) ↔ Meets limit fresh add P parts ∨
      ∃ held, (part.1, held) ∈ entriesOf limit fresh add parts ∧ P held part.2 := by
  constructor
  · rintro ⟨before, found, after, held, hpar, hheld, hmeets⟩
    rcases eq_nil_or_concat' after with rfl | ⟨after, last, rfl⟩
    · obtain ⟨rfl, hpart⟩ := append_inj' hpar rfl
      obtain rfl := singleton_inj.mp hpart
      exact .inr ⟨held, hheld, hmeets⟩
    · rw [← cons_append, ← append_assoc] at hpar
      obtain ⟨rfl, -⟩ := append_inj' hpar rfl
      exact .inl ⟨before, found, after, held, rfl, hheld, hmeets⟩
  · rintro (⟨before, found, after, held, rfl, hheld, hmeets⟩ | ⟨held, hheld, hmeets⟩)
    · exact ⟨before, found, after ++ [part], held, by simp, hheld, hmeets⟩
    · exact ⟨parts, part, [], held, rfl, hheld, hmeets⟩

theorem Meets.append (h : Meets limit fresh add P parts) (more : List (K × W)) :
    Meets limit fresh add P (parts ++ more) := by
  obtain ⟨before, part, after, held, rfl, hheld, hmeets⟩ := h
  exact ⟨before, part, after ++ more, held, by simp, hheld, hmeets⟩

theorem mem_keys : key ∈ keys parts ↔ ∃ part ∈ parts, part.1 = key := by
  rw [keys, mem_toFinset, mem_map]

theorem mem_valuesOf {part : W} : part ∈ valuesOf key parts ↔ (key, part) ∈ parts := by
  simp [valuesOf]

theorem keys_perm {parts' : List (K × W)} (h : parts.Perm parts') : keys parts = keys parts' := by
  ext key
  simp only [mem_keys, h.mem_iff]

theorem total_eq_none : total fresh add values = none ↔ values = [] := by
  cases values <;> simp [total]

theorem exists_total (fresh : W → V) (add : V → W → V) (h : values ≠ []) :
    ∃ held, total fresh add values = some held :=
  Option.ne_none_iff_exists'.mp fun hnone => h (total_eq_none.mp hnone)

/-- A key that is kept in the end has been kept since it was seen. -/
theorem kept_of_isPrefix {before after : List (K × W)}
    (hkept : key ∈ (keys (before ++ after)).sort.take limit) (hseen : key ∈ keys before) :
    key ∈ (keys before).sort.take limit := by
  rw [mem_take_sort] at hkept ⊢
  refine ⟨hseen, (Finset.card_le_card fun other hoth => ?_).trans_lt hkept.2⟩
  rw [Finset.mem_filter, mem_keys] at hoth ⊢
  obtain ⟨⟨part, hpart, hkey⟩, hlt⟩ := hoth
  exact ⟨⟨part, mem_append_left _ hpart, hkey⟩, hlt⟩

/-- In ascending order, what is kept when a value comes for it is kept in the end. -/
theorem kept_of_ascending {before after : List (K × W)} {part : K × W}
    (hasc : (before ++ part :: after).Pairwise fun left right => left.1 ≤ right.1)
    (hkept : part.1 ∈ (keys before).sort.take limit) :
    part.1 ∈ (keys (before ++ part :: after)).sort.take limit := by
  rw [mem_take_sort] at hkept ⊢
  refine ⟨mem_keys.mpr ⟨part, by simp, rfl⟩,
    (Finset.card_le_card fun other hoth => ?_).trans_lt hkept.2⟩
  rw [Finset.mem_filter, mem_keys] at hoth ⊢
  obtain ⟨⟨found, hfnd, rfl⟩, hlt⟩ := hoth
  have hlat := (pairwise_cons.mp (pairwise_append.mp hasc).2.1).1
  rcases mem_append.mp hfnd with hbef | hrest
  · exact ⟨⟨found, hbef, rfl⟩, hlt⟩
  · rcases mem_cons.mp hrest with rfl | haft
    · exact absurd hlt (lt_irrefl _)
    · exact absurd hlt (hlat found haft).not_gt

/-- What meets a condition is kept, then at least. -/
theorem Meets.exists_kept (h : Meets limit fresh add P parts) :
    ∃ before part after held, parts = before ++ part :: after ∧
      part.1 ∈ (keys before).sort.take limit ∧
      total fresh add (valuesOf part.1 before) = some held ∧ P held part.2 := by
  obtain ⟨before, part, after, held, hpar, hheld, hmeets⟩ := h
  have hhold := holds_entriesOf limit fresh add before
  exact ⟨before, part, after, held, hpar, hhold.keys_eq ▸ mem_map_of_mem hheld,
    hhold.total_eq _ hheld, hmeets⟩

theorem meets_of_kept {before after : List (K × W)} {part : K × W}
    (hkept : part.1 ∈ (keys before).sort.take limit)
    (htot : total fresh add (valuesOf part.1 before) = some value) (hmeets : P value part.2) :
    Meets limit fresh add P (before ++ part :: after) := by
  have hhold := holds_entriesOf limit fresh add before
  rw [← hhold.keys_eq] at hkept
  obtain ⟨entry, hent, hkey⟩ := mem_map.mp hkept
  have hvalue := hhold.total_eq entry hent
  rw [hkey, htot] at hvalue
  exact ⟨before, part, after, value, rfl,
    (Prod.ext hkey (Option.some.inj hvalue).symm : entry = (part.1, value)) ▸ hent, hmeets⟩

end Maps

end Termivar.SortedPrefix
