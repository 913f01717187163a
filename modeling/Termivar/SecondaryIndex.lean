/-
# Secondary indexes

A table of records by identifier, and a secondary index: the identifiers of
the records with a key, under that key. The index is exact if it holds an
identifier under a key if and only if the table has a record of that
identifier with that key; an exact index and the records it names are then
determined by the table.

A table that only gains records, or exchanges one for another with the same
claim, preserves the claims of its records (`Preserves`); the records with a
key stay as they are (`SameUnder`) while those with other keys change.
-/
import Termivar.Collections

namespace Termivar.SecondaryIndex

variable {K I V : Type} [Ord K] [Std.TransOrd K] [Std.LawfulEqOrd K] [Ord I] [Std.TransOrd I]
  [Std.LawfulEqOrd I]

/-- The identifiers indexed under a key. -/
def idsUnder (index : BTreeMap K (BTreeSet I)) (k : K) : BTreeSet I := index[k]?.getD ∅

/-- Index the identifier under the key. -/
def index (index : BTreeMap K (BTreeSet I)) (k : K) (id : I) : BTreeMap K (BTreeSet I) :=
  index.insert k ((idsUnder index k).insert id)

/-- The indexed records, in the order of their identifiers. -/
def collectIndexed (ids : Option (BTreeSet I)) (values : BTreeMap I V) : List V :=
  (ids.getD ∅).toList.filterMap fun id => values[id]?

/-- The index holds an identifier under a key exactly if the table has a
record of that identifier with that key. -/
def Exact (values : BTreeMap I V) (key : V → K) (idx : BTreeMap K (BTreeSet I)) : Prop :=
  ∀ k id, id ∈ idsUnder idx k ↔ ∃ v, values[id]? = some v ∧ key v = k

omit [Std.LawfulEqOrd K] [Std.LawfulEqOrd I] in
theorem exact_empty {key : V → K} :
    Exact (∅ : BTreeMap I V) key (∅ : BTreeMap K (BTreeSet I)) := by
  intro k id
  simp [idsUnder]

variable {values other : BTreeMap I V} {key : V → K} {idx idx' : BTreeMap K (BTreeSet I)}

theorem mem_idsUnder_index (k k' : K) (id id' : I) :
    id' ∈ idsUnder (index idx k id) k' ↔ (k' = k ∧ id' = id) ∨ id' ∈ idsUnder idx k' := by
  classical
  by_cases hk : k = k'
  · subst hk
    have hget : idsUnder (index idx k id) k = (idsUnder idx k).insert id := by
      simp [idsUnder, index]
    rw [hget, mem_insert_iff]
    simp
  · have hget : idsUnder (index idx k id) k' = idsUnder idx k' := by
      unfold idsUnder index
      rw [get_insert_ne _ hk]
    rw [hget]
    simp [Ne.symm hk]

/-- A new record is indexed under its key. -/
theorem Exact.insert_new (h : Exact values key idx) {id : I} (v : V) (hnew : values[id]? = none) :
    Exact (values.insert id v) key (index idx (key v) id) := by
  classical
  intro k id'
  rw [mem_idsUnder_index, h k id', get_insert]
  by_cases hid : id = id'
  · subst hid
    simp only [if_true, Option.some.injEq, hnew, and_true]
    constructor
    · rintro (hk | ⟨w, hw, -⟩)
      · exact ⟨v, rfl, hk.symm⟩
      · cases hw
    · rintro ⟨w, rfl, hk⟩
      exact Or.inl hk.symm
  · simp [hid, Ne.symm hid]

omit [Std.LawfulEqOrd K] in
/-- A record exchanged for one with the same key stays indexed. -/
theorem Exact.insert_old (h : Exact values key idx) {id : I} {w : V} (v : V)
    (hold : values[id]? = some w) (hkey : key v = key w) : Exact (values.insert id v) key idx := by
  classical
  intro k id'
  rw [h k id', get_insert]
  by_cases hid : id = id'
  · subst hid
    simp [hold, hkey]
  · simp [hid]

/-! ### Tables -/

/-- Every record is stored under its own identifier. -/
def Keyed (idOf : V → I) (values : BTreeMap I V) : Prop :=
  ∀ (id : I) (v : V), values[id]? = some v → idOf v = id

omit [Std.LawfulEqOrd I] in
theorem keyed_empty {idOf : V → I} : Keyed idOf ∅ := by
  intro id v hget
  simp at hget

theorem Keyed.insert {idOf : V → I} (h : Keyed idOf values) {id : I} {v : V} (hid : idOf v = id) :
    Keyed idOf (values.insert id v) := by
  classical
  intro id' w hget
  rw [get_insert] at hget
  split_ifs at hget with heq
  · cases hget
    exact hid.trans heq
  · exact h id' w hget

/-- Every record is still there, perhaps exchanged for one with the same claim. -/
def Preserves {C : Type} (claim : V → C) (before after : BTreeMap I V) : Prop :=
  ∀ (id : I) (v : V), before[id]? = some v → ∃ w, after[id]? = some w ∧ claim w = claim v

section Preserves

variable {C : Type} {claim : V → C}

omit [Std.LawfulEqOrd I] in
theorem Preserves.refl (values : BTreeMap I V) : Preserves claim values values :=
  fun _ v hget => ⟨v, hget, rfl⟩

omit [Std.LawfulEqOrd I] in
theorem Preserves.trans {last : BTreeMap I V} (h : Preserves claim values other)
    (h' : Preserves claim other last) : Preserves claim values last := by
  intro id v hget
  obtain ⟨w, hw, hclaim⟩ := h id v hget
  obtain ⟨x, hx, hclaim'⟩ := h' id w hw
  exact ⟨x, hx, hclaim'.trans hclaim⟩

theorem Preserves.insert_new {id : I} (v : V) (hnew : values[id]? = none) :
    Preserves claim values (values.insert id v) := by
  intro id' w hget
  have hne : id ≠ id' := by
    rintro rfl
    rw [hnew] at hget
    cases hget
  exact ⟨w, (get_insert_ne v hne).trans hget, rfl⟩

theorem Preserves.insert_old {id : I} {v w : V} (hold : values[id]? = some w)
    (hclaim : claim v = claim w) : Preserves claim values (values.insert id v) := by
  intro id' x hget
  by_cases hid : id = id'
  · subst hid
    rw [hold] at hget
    cases hget
    exact ⟨v, get_insert_self _ _ _, hclaim⟩
  · exact ⟨x, (get_insert_ne v hid).trans hget, rfl⟩

end Preserves

/-- The records with a key are the same. -/
def SameUnder (key : V → K) (k : K) (before after : BTreeMap I V) : Prop :=
  ∀ (id : I) (v : V), key v = k → (before[id]? = some v ↔ after[id]? = some v)

section SameUnder

variable {k : K}

omit [Ord K] [Std.TransOrd K] [Std.LawfulEqOrd K] [Std.LawfulEqOrd I] in
theorem SameUnder.refl (values : BTreeMap I V) : SameUnder key k values values :=
  fun _ _ _ => Iff.rfl

omit [Ord K] [Std.TransOrd K] [Std.LawfulEqOrd K] [Std.LawfulEqOrd I] in
theorem SameUnder.trans {last : BTreeMap I V} (h : SameUnder key k values other)
    (h' : SameUnder key k other last) : SameUnder key k values last :=
  fun id v hk => (h id v hk).trans (h' id v hk)

omit [Ord K] [Std.TransOrd K] [Std.LawfulEqOrd K] in
/-- A record with another key is written, in the place of none with the key. -/
theorem SameUnder.insert {id : I} {v : V} (hv : key v ≠ k)
    (hold : ∀ w, values[id]? = some w → key w ≠ k) :
    SameUnder key k values (values.insert id v) := by
  intro id' x hx
  by_cases hid : id = id'
  · subst hid
    constructor
    · intro hget
      exact absurd hx (hold x hget)
    · intro hget
      rw [get_insert_self] at hget
      cases hget
      exact absurd hx hv
  · rw [get_insert_ne v hid]

end SameUnder

omit [Std.LawfulEqOrd K] in
/-- The records an exact index names under a key depend only on the records
with that key. -/
theorem collectIndexed_congr {k : K} (h : Exact values key idx) (h' : Exact other key idx')
    (hsame : SameUnder key k values other) :
    collectIndexed idx[k]? values = collectIndexed idx'[k]? other := by
  have hids : idsUnder idx k = idsUnder idx' k := by
    refine Std.ExtTreeSet.ext_mem fun id => ?_
    rw [h k id, h' k id]
    constructor
    · rintro ⟨v, hv, hk⟩
      exact ⟨v, (hsame id v hk).mp hv, hk⟩
    · rintro ⟨v, hv, hk⟩
      exact ⟨v, (hsame id v hk).mpr hv, hk⟩
  have hvalue : ∀ id ∈ (idsUnder idx' k).toList, values[id]? = other[id]? := by
    intro id hid
    obtain ⟨v, hv, hk⟩ := (h' k id).mp (Std.ExtTreeSet.mem_toList.mp hid)
    rw [hv]
    exact (hsame id v hk).mpr hv
  show (idsUnder idx k).toList.filterMap _ = (idsUnder idx' k).toList.filterMap _
  rw [hids]
  exact List.filterMap_congr hvalue

omit [Std.LawfulEqOrd K] in
/-- What a table preserves is still named under its key. -/
theorem Preserves.collectIndexed {C : Type} {claim : V → C} (hsame : Preserves claim values other)
    (h : Exact values key idx) (h' : Exact other key idx')
    (hkey : ∀ v w, claim w = claim v → key w = key v) {k : K} {v : V}
    (hv : v ∈ collectIndexed idx[k]? values) :
    ∃ w ∈ collectIndexed idx'[k]? other, claim w = claim v := by
  obtain ⟨id, hid, hget⟩ := List.mem_filterMap.mp hv
  obtain ⟨_, hget', rfl⟩ := (h k id).mp (Std.ExtTreeSet.mem_toList.mp hid)
  cases hget.symm.trans hget'
  obtain ⟨w, hw, hclaim⟩ := hsame id v hget
  have hid' := (h' (key v) id).mpr ⟨w, hw, hkey v w hclaim⟩
  exact ⟨w, List.mem_filterMap.mpr ⟨id, Std.ExtTreeSet.mem_toList.mpr hid', hw⟩, hclaim⟩

end Termivar.SecondaryIndex
