/-
# Maps without an order

The contents of a hash map: a list of entries whose keys differ, where only an
iteration sees an order, and each iteration its own. What a map holds is told by
its entries up to their order (`HashMap.get_eq_some`, `HashMap.modify_perm`).
-/
import Mathlib

namespace Termivar

open List

structure HashMap (K V : Type) where
  entries : List (K × V)
  nodup : (entries.map Prod.fst).Nodup

/-- The order in which one iteration sees the entries. -/
structure Iteration (K V : Type) where
  arrange : List (K × V) → List (K × V)
  perm : ∀ entries, (arrange entries).Perm entries

namespace HashMap

variable {K V : Type} [DecidableEq K]

def empty : HashMap K V := ⟨[], nodup_nil⟩

variable (map : HashMap K V)

def len : Nat := map.entries.length

def get (key : K) : Option V :=
  (map.entries.find? fun entry => entry.1 = key).map Prod.snd

def containsKey (key : K) : Bool := (map.get key).isSome

def remove (key : K) : HashMap K V :=
  ⟨map.entries.filter fun entry => entry.1 ≠ key, map.nodup.sublist (filter_sublist.map _)⟩

theorem not_mem_keys_remove (key : K) :
    key ∉ (map.remove key).entries.map Prod.fst := by
  intro hmem
  obtain ⟨entry, hent, rfl⟩ := mem_map.mp hmem
  simpa using (mem_filter.mp hent).2

/-- The entry of the key is replaced, or a new one added. -/
def insert (key : K) (value : V) : HashMap K V :=
  ⟨(key, value) :: (map.remove key).entries,
    nodup_cons.mpr ⟨map.not_mem_keys_remove key, (map.remove key).nodup⟩⟩

/-- What `update` makes of the entry of the key. -/
def modifyEntry (key : K) (update : V → V) (entry : K × V) : K × V :=
  if entry.1 = key then (entry.1, update entry.2) else entry

theorem map_fst_modifyEntry (key : K) (update : V → V) (entries : List (K × V)) :
    (entries.map (modifyEntry key update)).map Prod.fst = entries.map Prod.fst := by
  rw [map_map]
  refine map_congr_left fun entry _ => ?_
  by_cases hkey : entry.1 = key <;> simp [modifyEntry, hkey]

/-- `get_mut`, and a write through it. -/
def modify (key : K) (update : V → V) : HashMap K V :=
  ⟨map.entries.map (modifyEntry key update), by rw [map_fst_modifyEntry]; exact map.nodup⟩

/-! ### What a map holds -/

variable {map : HashMap K V} {key : K} {value : V}

/-- A map holds what its entries say. -/
theorem get_eq_some : map.get key = some value ↔ (key, value) ∈ map.entries := by
  unfold get
  constructor
  · intro h
    obtain ⟨⟨found, held⟩, hfnd, rfl⟩ := Option.map_eq_some_iff.mp h
    have hkey : found = key := by simpa using find?_some hfnd
    exact hkey ▸ mem_of_find?_eq_some hfnd
  · intro hmem
    cases hfnd : map.entries.find? fun entry => entry.1 = key with
    | none => exact absurd (decide_eq_true rfl) (find?_eq_none.mp hfnd (key, value) hmem)
    | some entry =>
      have hkey : entry.1 = key := by simpa using find?_some hfnd
      rw [inj_on_of_nodup_map map.nodup (mem_of_find?_eq_some hfnd) hmem hkey]
      rfl

theorem get_eq_none : map.get key = none ↔ ∀ entry ∈ map.entries, entry.1 ≠ key := by
  simp [get]

/-- An entry, and all others. -/
theorem perm_remove (h : (key, value) ∈ map.entries) :
    map.entries.Perm ((key, value) :: (map.remove key).entries) := by
  obtain ⟨front, back, hents⟩ := append_of_mem h
  have hnd := map.nodup
  rw [hents, map_append, map_cons, nodup_middle, nodup_cons, mem_append, not_or] at hnd
  have hoths : ∀ part : List (K × V), key ∉ part.map Prod.fst →
      part.filter (fun entry => decide (entry.1 ≠ key)) = part := by
    intro part hpart
    refine filter_eq_self.mpr fun entry hmem => decide_eq_true ?_
    rintro rfl
    exact hpart (mem_map_of_mem hmem)
  have hrem : (map.remove key).entries = front ++ back := by
    change map.entries.filter (fun entry => decide (entry.1 ≠ key)) = _
    rw [hents, filter_append, filter_cons_of_neg (by simp), hoths front hnd.1.1, hoths back hnd.1.2]
  rw [hrem, hents]
  exact perm_middle

/-- **A write through `get_mut` replaces the one entry.** -/
theorem modify_perm (h : map.get key = some value) (update : V → V) :
    (map.modify key update).entries.Perm ((key, update value) :: (map.remove key).entries) := by
  have hperm := (perm_remove (get_eq_some.mp h)).map (modifyEntry key update)
  have hfirst : modifyEntry key update (key, value) = (key, update value) := if_pos rfl
  have hoths : (map.remove key).entries.map (modifyEntry key update) =
      (map.remove key).entries := by
    refine (map_congr_left fun entry hmem => ?_).trans (map_id _)
    refine if_neg fun hkey : entry.1 = key => map.not_mem_keys_remove key ?_
    exact mem_map.mpr ⟨entry, hmem, hkey⟩
  rw [map_cons, hfirst, hoths] at hperm
  exact hperm

end HashMap

end Termivar
