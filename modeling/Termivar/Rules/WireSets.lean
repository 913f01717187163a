/-
# The wire form of maps and sets

A map is written as an object under its keys in their order, a set as the list
of its elements; both are read entry by entry, a later entry replacing an
earlier one. What was written is read back.
-/
import Termivar.Rules.Wire

namespace Termivar.Wire

section Maps

variable {V : Type}

/-- A map under text keys. -/
def readMap (read : Data → Except WireError V) : Data → Except WireError (BTreeMap String V)
  | .map entries => entries.foldlM (fun m entry => do return m.insert entry.1 (← read entry.2)) ∅
  | _ => .error .invalidType

def writeMap (write : V → Data) (m : BTreeMap String V) : Data :=
  .map (m.toList.map fun entry => (entry.1, write entry.2))

theorem foldlM_insert {read : Data → Except WireError V} {write : V → Data} :
    ∀ (entries : List (String × V)) (m : BTreeMap String V),
      (∀ entry ∈ entries, read (write entry.2) = .ok entry.2) →
      (entries.map fun entry => (entry.1, write entry.2)).foldlM
        (fun m entry => do return m.insert entry.1 (← read entry.2)) m =
          .ok (entries.foldl (fun m entry => m.insert entry.1 entry.2) m)
  | [], m, _ => rfl
  | entry :: entries, m, h => by
    obtain ⟨hent, hrest⟩ := List.forall_mem_cons.mp h
    rw [List.map_cons, List.foldlM_cons, hent]
    exact foldlM_insert entries _ hrest

/-- The map that entries under distinct keys are inserted into. -/
theorem get_foldl_insert (k : String) : ∀ (entries : List (String × V)) (m : BTreeMap String V),
    (entries.map Prod.fst).Nodup →
    ∀ v, (entries.foldl (fun m entry => m.insert entry.1 entry.2) m)[k]? = some v ↔
      (k, v) ∈ entries ∨ k ∉ entries.map Prod.fst ∧ m[k]? = some v
  | [], m, _, v => by simp
  | (key, value) :: entries, m, hnd, v => by
    obtain ⟨hnot, hnd⟩ := List.nodup_cons.mp hnd
    rw [List.foldl_cons, get_foldl_insert k entries _ hnd, get_insert]
    by_cases hk : key = k
    · subst hk
      have hmiss : (key, v) ∉ entries := fun hmem =>
        hnot (List.mem_map.mpr ⟨(key, v), hmem, rfl⟩)
      simp [hmiss, hnot, eq_comm]
    · simp [hk, Ne.symm hk]

theorem foldl_insert_toList (m : BTreeMap String V) :
    m.toList.foldl (fun m entry => m.insert entry.1 entry.2) ∅ = m := by
  refine Std.ExtTreeMap.ext_getElem? fun k => Option.ext fun v => ?_
  rw [get_foldl_insert k m.toList ∅ (keys_nodup m), mem_toList]
  simp

/-- A map is read back. -/
theorem readMap_writeMap {read : Data → Except WireError V} {write : V → Data}
    {m : BTreeMap String V} (h : ∀ (k : String) v, m[k]? = some v → read (write v) = .ok v) :
    readMap read (writeMap write m) = .ok m := by
  rw [writeMap, readMap, foldlM_insert m.toList ∅ fun entry hent => h _ _ (mem_toList.mp hent),
    foldl_insert_toList]

end Maps

section Sets

variable {K : Type} [Ord K] [Std.TransOrd K] [Std.LawfulEqOrd K]

def readSet (read : Data → Except WireError K) : Data → Except WireError (BTreeSet K)
  | .seq items => do
    let elements ← items.mapM read
    return elements.foldl (fun set element => set.insert element) ∅
  | _ => .error .invalidType

def writeSet (write : K → Data) (set : BTreeSet K) : Data := .seq (set.toList.map write)

theorem mem_foldl_insert (k : K) : ∀ (elements : List K) (set : BTreeSet K),
    k ∈ elements.foldl (fun set element => set.insert element) set ↔ k ∈ elements ∨ k ∈ set
  | [], set => by simp
  | element :: elements, set => by
    rw [List.foldl_cons, mem_foldl_insert k elements, mem_insert_iff, List.mem_cons]
    tauto

/-- A set is read back. -/
theorem readSet_writeSet {read : Data → Except WireError K} {write : K → Data} {set : BTreeSet K}
    (h : ∀ k ∈ set, read (write k) = .ok k) : readSet read (writeSet write set) = .ok set := by
  have hread : (set.toList.map write).mapM read = .ok set.toList := by
    refine Checked.mapM_eq_ok_iff.mpr (List.forall₂_map_left_iff.mpr ?_)
    exact List.forall₂_same.mpr fun k hk => h k (Std.ExtTreeSet.mem_toList.mp hk)
  have hset : set.toList.foldl (fun set element => set.insert element) ∅ = set := by
    refine Std.ExtTreeSet.ext_mem fun k => ?_
    rw [mem_foldl_insert, Std.ExtTreeSet.mem_toList]
    simp
  simp only [writeSet, readSet, hread]
  exact congrArg Except.ok hset

end Sets

end Termivar.Wire
