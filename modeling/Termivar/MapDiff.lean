/-
# Comparing two maps by consuming one

Two maps with keys in common are compared by going through the first one and
taking what has the same key out of a copy of the second: what is found is a
pair, and what is left of the second map at the end has no partner
(`foldlM_consume`). The pairs of a comparison and those of the comparison the
other way are the same (`pairedEntries_swap`).
-/
import Termivar.Collections

namespace Termivar.MapDiff

open List

variable {K A B : Type} [Ord K] [Std.TransOrd K]

/-! ### The loop -/

section

variable {M : Type → Type} [Monad M] {S : Type}

/-- One entry of the first map, with what is left of the second one. -/
def consume (allowed : Bool) (onPair : S → K → A → B → M S) (onAlone : S → K → A → S)
    (state : S × BTreeMap K B) (entry : K × A) : M (S × BTreeMap K B) :=
  match if allowed then state.2[entry.1]? else none with
  | some other => do
    let next ← onPair state.1 entry.1 entry.2 other
    return (next, state.2.erase entry.1)
  | none => pure (onAlone state.1 entry.1 entry.2, state.2)

/-- One entry of the first map, with the second map as it was. -/
def lookup (allowed : Bool) (onPair : S → K → A → B → M S) (onAlone : S → K → A → S)
    (after : BTreeMap K B) (state : S) (entry : K × A) : M S :=
  match if allowed then after[entry.1]? else none with
  | some other => onPair state entry.1 entry.2 other
  | none => pure (onAlone state entry.1 entry.2)

variable [Std.LawfulEqOrd K] [DecidableEq K] [LawfulMonad M]

/-- A map without some keys. -/
def without (after : BTreeMap K B) (keys : List K) : BTreeMap K B :=
  keys.foldl (fun m k => m.erase k) after

theorem get_without (keys : List K) : ∀ (after : BTreeMap K B) (k : K),
    (without after keys)[k]? = if k ∈ keys then none else after[k]? := by
  induction keys with
  | nil => simp [without]
  | cons key keys ih =>
    intro after k
    rw [without, foldl_cons, ← without, ih, get_erase]
    by_cases hk : k ∈ keys
    · simp [hk]
    · by_cases hkey : key = k
      · simp [hkey]
      · simp [hk, hkey, Ne.symm hkey]

/-- Taking out what was found leaves what is looked up later. -/
theorem foldlM_consume {allowed : Bool} {onPair : S → K → A → B → M S} {onAlone : S → K → A → S} :
    ∀ {entries : List (K × A)} {state : S} {after remaining : BTreeMap K B},
    (entries.map Prod.fst).Nodup →
    (∀ k ∈ entries.map Prod.fst, remaining[k]? = after[k]?) →
    entries.foldlM (consume allowed onPair onAlone) (state, remaining) =
      (fun next => (next, without remaining ((entries.map Prod.fst).filter fun k =>
        allowed && after.contains k))) <$>
        entries.foldlM (lookup allowed onPair onAlone after) state
  | [], state, after, remaining, _, _ => by simp [without]
  | (key, value) :: entries, state, after, remaining, hnd, hsame => by
    rw [map_cons, nodup_cons] at hnd
    have hhead : remaining[key]? = after[key]? := hsame key (by simp)
    have hcont : after.contains key = after[key]?.isSome := contains_eq_isSome after key
    rw [foldlM_cons, foldlM_cons, consume, lookup]
    simp only [hhead, map_cons, filter_cons, hcont]
    cases hallowed : allowed with
    | false =>
      simp only [Bool.false_eq_true, if_false, pure_bind, Bool.false_and]
      rw [foldlM_consume hnd.2 fun k hk => hsame k (mem_cons_of_mem _ hk)]
      simp
    | true =>
      cases hlook : after[key]? with
      | none =>
        simp only [if_true, pure_bind, Option.isSome_none, Bool.and_false, Bool.false_eq_true, if_false]
        rw [foldlM_consume hnd.2 fun k hk => hsame k (mem_cons_of_mem _ hk)]
      | some other =>
        simp only [if_true, Option.isSome_some, Bool.and_true, bind_assoc, pure_bind, map_bind]
        refine bind_congr fun next => ?_
        have hrest : ∀ k ∈ entries.map Prod.fst, (remaining.erase key)[k]? = after[k]? := by
          intro k hk
          rw [get_erase, if_neg (by rintro rfl; exact hnd.1 hk)]
          exact hsame k (mem_cons_of_mem _ hk)
        rw [foldlM_consume hnd.2 hrest]
        rfl

end

/-! ### Pairs and entries without a partner -/

/-- The entries of both maps with the same key. -/
def pairedEntries (before : BTreeMap K A) (after : BTreeMap K B) : List (K × A × B) :=
  before.toList.filterMap fun e => after[e.1]?.map fun other => (e.1, e.2, other)

/-- The entries whose key the other map does not have. -/
def onlyEntries (before : BTreeMap K A) (after : BTreeMap K B) : List (K × A) :=
  before.toList.filter fun e => !after.contains e.1

/-- The entries are in the order of their keys. -/
theorem pairwise_toList (m : BTreeMap K A) : m.toList.Pairwise fun a b => compare a.1 b.1 = .lt :=
  Std.ExtTreeMap.ordered_keys_toList

variable [Std.LawfulEqOrd K] {before : BTreeMap K A} {after : BTreeMap K B}

theorem mem_pairedEntries {k : K} {a : A} {b : B} :
    (k, a, b) ∈ pairedEntries before after ↔ before[k]? = some a ∧ after[k]? = some b := by
  unfold pairedEntries
  simp only [mem_filterMap, Option.map_eq_some_iff, Prod.mk.injEq, Prod.exists]
  constructor
  · rintro ⟨k', a', hmem, b', haft, rfl, rfl, rfl⟩
    exact ⟨mem_toList.mp hmem, haft⟩
  · rintro ⟨hbef, haft⟩
    exact ⟨k, a, mem_toList.mpr hbef, b, haft, rfl, rfl, rfl⟩

theorem mem_onlyEntries {k : K} {a : A} :
    (k, a) ∈ onlyEntries before after ↔ before[k]? = some a ∧ after[k]? = none := by
  rw [onlyEntries, mem_filter, mem_toList, contains_eq_isSome, Bool.not_eq_true',
    Option.isSome_eq_false_iff, Option.isNone_iff_eq_none]

omit [Std.LawfulEqOrd K] in
theorem pairwise_pairedEntries (before : BTreeMap K A) (after : BTreeMap K B) :
    (pairedEntries before after).Pairwise fun a b => compare a.1 b.1 = .lt := by
  rw [pairedEntries, pairwise_filterMap]
  refine (pairwise_toList before).imp ?_
  rintro ⟨k, a⟩ ⟨k', a'⟩ hlt x hx y hy
  obtain ⟨b, -, rfl⟩ := Option.map_eq_some_iff.mp hx
  obtain ⟨b', -, rfl⟩ := Option.map_eq_some_iff.mp hy
  exact hlt

omit [Std.LawfulEqOrd K] in
/-- Entries in the order of their keys are told by what they are. -/
theorem eq_of_pairwise {C : Type} {xs ys : List (K × C)}
    (hxs : xs.Pairwise fun a b => compare a.1 b.1 = .lt)
    (hys : ys.Pairwise fun a b => compare a.1 b.1 = .lt) (h : ∀ k c, (k, c) ∈ xs ↔ (k, c) ∈ ys) :
    xs = ys := by
  have hnd : ∀ {zs : List (K × C)}, zs.Pairwise (fun a b => compare a.1 b.1 = .lt) → zs.Nodup := by
    intro zs hzs
    refine hzs.imp ?_
    rintro a b hlt rfl
    simp at hlt
  refine @List.Perm.eq_of_pairwise _ (fun a b => compare a.1 b.1 = .lt) _ _ ?_ hxs hys
    ((perm_ext_iff_of_nodup (hnd hxs) (hnd hys)).mpr fun e => h e.1 e.2)
  intro a b _ _ hab hba
  exact absurd (Std.OrientedCmp.gt_of_lt hab) (by rw [hba]; decide)

/-- **The pairs are the same the other way.** -/
theorem pairedEntries_swap (before : BTreeMap K A) (after : BTreeMap K B) :
    pairedEntries after before = (pairedEntries before after).map fun p => (p.1, p.2.2, p.2.1) := by
  refine eq_of_pairwise (pairwise_pairedEntries after before)
    (pairwise_map.mpr (pairwise_pairedEntries before after)) ?_
  rintro k ⟨b, a⟩
  rw [mem_pairedEntries]
  constructor
  · rintro ⟨hb, ha⟩
    exact mem_map.mpr ⟨(k, a, b), mem_pairedEntries.mpr ⟨ha, hb⟩, rfl⟩
  · intro h
    obtain ⟨⟨k', a', b'⟩, hmem, heq⟩ := mem_map.mp h
    obtain ⟨rfl, rfl, rfl⟩ : k' = k ∧ b' = b ∧ a' = a := by simpa using heq
    exact (mem_pairedEntries.mp hmem).symm

/-- What is left of the second map has no partner. -/
theorem toList_without [DecidableEq K] (before : BTreeMap K A) (after : BTreeMap K B) :
    (without after ((before.toList.map Prod.fst).filter fun k => after.contains k)).toList =
      onlyEntries after before := by
  refine eq_of_pairwise (pairwise_toList _) ((pairwise_toList after).sublist filter_sublist) ?_
  intro k b
  rw [mem_toList, get_without, mem_onlyEntries]
  have hmem : k ∈ (before.toList.map Prod.fst).filter (fun k => after.contains k) ↔
      before[k]?.isSome = true ∧ after[k]?.isSome = true := by
    rw [mem_filter, contains_eq_isSome]
    simp only [mem_map, Prod.exists, exists_and_right, exists_eq_right, mem_toList,
      Option.isSome_iff_exists]
  split_ifs with h
  · obtain ⟨hbef, -⟩ := hmem.mp h
    rw [Option.isSome_iff_ne_none] at hbef
    constructor
    · intro h
      cases h
    · intro h
      exact absurd h.2 hbef
  · refine ⟨fun haft => ⟨haft, ?_⟩, fun h => h.1⟩
    by_contra hbef
    exact h (hmem.mpr ⟨Option.isSome_iff_ne_none.mpr hbef, by rw [haft]; rfl⟩)

end Termivar.MapDiff
