/-
# Snapshots

The JSON values that the API comparators canonicalize. Comparators visit the
members of an object in the order of their names: the members of every object
are sorted first, so that a visit follows the value. Values that differ in the
order of members alone are sorted to the same value (`Reordered.sorted_eq`).

A value is a tree with scalars at its leaves; what a comparator writes for a
scalar is a label: its text (`Shown`) or its type (`Kind`). The text of a float
is a parameter.
-/
import Termivar.TreeHash

namespace Termivar.ApiEvidence

open List

open TreeHash (Doc)

/-- `serde_json::Number`. -/
inductive Number (F : Type) where
  | posInt (value : Nat)
  | negInt (magnitude : Nat)
  | float (value : F)

/-- `serde_json::Value`. -/
inductive Value (F : Type) where
  | null
  | bool (value : Bool)
  | number (value : Number F)
  | string (value : String)
  | array (items : List (Value F))
  | object (members : List (String × Value F))

variable {F : Type}

/-- `is_i64() || is_u64()`. -/
def Number.isInteger : Number F → Bool
  | .posInt _ | .negInt _ => true
  | .float _ => false

/-- `Number::to_string`. -/
def Number.show (showFloat : F → String) : Number F → String
  | .posInt value => toString value
  | .negInt magnitude => "-" ++ toString magnitude
  | .float value => showFloat value

/-! ### The order of members -/

/-- `sort_by` the bytes of the names. -/
def sortMembers (members : List (String × Value F)) : List (String × Value F) :=
  members.insertionSort fun left right => left.1 ≤ right.1

namespace Value

mutual

/-- The value with the members of every object sorted. -/
def sorted : Value F → Value F
  | .array items => .array (sortedItems items)
  | .object members => .object (sortMembers (sortedMembers members))
  | value => value

def sortedItems : List (Value F) → List (Value F)
  | [] => []
  | item :: items => sorted item :: sortedItems items

def sortedMembers : List (String × Value F) → List (String × Value F)
  | [] => []
  | (name, item) :: members => (name, sorted item) :: sortedMembers members

end

mutual

/-- The members of an object have different names. -/
def Keyed : Value F → Prop
  | .array items => KeyedItems items
  | .object members => (members.map Prod.fst).Nodup ∧ KeyedMembers members
  | _ => True

def KeyedItems : List (Value F) → Prop
  | [] => True
  | item :: items => Keyed item ∧ KeyedItems items

def KeyedMembers : List (String × Value F) → Prop
  | [] => True
  | (_, item) :: members => Keyed item ∧ KeyedMembers members

end

theorem sortedItems_append : ∀ front back : List (Value F),
    sortedItems (front ++ back) = sortedItems front ++ sortedItems back
  | [], _ => rfl
  | item :: front, back => by
    rw [cons_append, sortedItems, sortedItems, sortedItems_append front back, cons_append]

theorem sortedMembers_eq : ∀ members : List (String × Value F),
    sortedMembers members = members.map fun member => (member.1, sorted member.2)
  | [] => rfl
  | (_, _) :: members => by rw [sortedMembers, sortedMembers_eq members, map_cons]

theorem keyedItems_iff : ∀ {items : List (Value F)}, KeyedItems items ↔ ∀ item ∈ items, Keyed item
  | [] => by simp [KeyedItems]
  | item :: items => by rw [KeyedItems, forall_mem_cons, keyedItems_iff]

theorem keyedMembers_iff : ∀ {members : List (String × Value F)},
    KeyedMembers members ↔ ∀ member ∈ members, Keyed member.2
  | [] => by simp [KeyedMembers]
  | (name, item) :: members => by rw [KeyedMembers, forall_mem_cons, keyedMembers_iff]

end Value

/-- Members with different names are sorted to one list, whatever their order. -/
theorem sortMembers_perm {members others : List (String × Value F)} (h : members.Perm others)
    (hnd : (members.map Prod.fst).Nodup) : sortMembers members = sortMembers others := by
  let le : String × Value F → String × Value F → Prop := fun left right => left.1 ≤ right.1
  have htot : Std.Total le := ⟨fun left right => le_total left.1 right.1⟩
  have htrans : IsTrans (String × Value F) le := ⟨fun _ _ _ => le_trans⟩
  have hperm : (sortMembers members).Perm (sortMembers others) :=
    (perm_insertionSort le members).trans (h.trans (perm_insertionSort le others).symm)
  refine hperm.eq_of_pairwise (fun left right hleft hright hle hle' => ?_)
    (pairwise_insertionSort le members) (pairwise_insertionSort le others)
  have hmem : left ∈ members := (perm_insertionSort le members).mem_iff.mp hleft
  have hmem' : right ∈ members :=
    h.mem_iff.mpr ((perm_insertionSort le others).mem_iff.mp hright)
  exact inj_on_of_nodup_map hnd hmem hmem' (le_antisymm hle hle')

/-- Values that differ in the order of the members of their objects. -/
inductive Reordered : Value F → Value F → Prop
  | refl (value : Value F) : Reordered value value
  | members {members others : List (String × Value F)} (h : members.Perm others) :
      Reordered (.object members) (.object others)
  | item (front : List (Value F)) {value other : Value F} (back : List (Value F))
      (h : Reordered value other) :
      Reordered (.array (front ++ value :: back)) (.array (front ++ other :: back))
  | member (front : List (String × Value F)) (name : String) {value other : Value F}
      (back : List (String × Value F)) (h : Reordered value other) :
      Reordered (.object (front ++ (name, value) :: back)) (.object (front ++ (name, other) :: back))
  | trans {value middle other : Value F} (h : Reordered value middle)
      (h' : Reordered middle other) : Reordered value other

/-- **Reordering members does not change what a value is sorted to.** -/
theorem Reordered.sorted_eq {value other : Value F} (h : Reordered value other)
    (hkd : value.Keyed) : value.sorted = other.sorted ∧ other.Keyed := by
  induction h with
  | refl => exact ⟨rfl, hkd⟩
  | @members members others h =>
    obtain ⟨hnd, hit⟩ := hkd
    rw [Value.keyedMembers_iff] at hit
    have hnd' : ((Value.sortedMembers members).map Prod.fst).Nodup := by
      rw [Value.sortedMembers_eq, map_map]
      exact hnd
    refine ⟨?_, ((h.map Prod.fst).nodup_iff).mp hnd,
      Value.keyedMembers_iff.mpr fun member hmbr => hit member (h.mem_iff.mpr hmbr)⟩
    rw [Value.sorted, Value.sorted, sortMembers_perm ?_ hnd']
    rw [Value.sortedMembers_eq, Value.sortedMembers_eq]
    exact h.map _
  | item front back h ih =>
    rw [Value.Keyed, Value.keyedItems_iff] at hkd
    obtain ⟨hsame, hoth⟩ := ih (hkd _ (by simp))
    refine ⟨?_, ?_⟩
    · simp only [Value.sorted, Value.sortedItems_append, Value.sortedItems, hsame]
    · rw [Value.Keyed, Value.keyedItems_iff]
      intro item hitem
      rcases mem_append.mp hitem with hfr | hback
      · exact hkd item (mem_append_left _ hfr)
      · rcases mem_cons.mp hback with rfl | hback
        · exact hoth
        · exact hkd item (mem_append_right _ (mem_cons_of_mem _ hback))
  | member front name back h ih =>
    obtain ⟨hnd, hit⟩ := hkd
    rw [Value.keyedMembers_iff] at hit
    obtain ⟨hsame, hoth⟩ := ih (hit (name, _) (by simp))
    refine ⟨?_, ?_, ?_⟩
    · simp only [Value.sorted, Value.sortedMembers_eq, map_append, map_cons, hsame]
    · simpa using hnd
    · rw [Value.keyedMembers_iff]
      intro member hmbr
      rcases mem_append.mp hmbr with hfr | hback
      · exact hit member (mem_append_left _ hfr)
      · rcases mem_cons.mp hback with rfl | hback
        · exact hoth
        · exact hit member (mem_append_right _ (mem_cons_of_mem _ hback))
  | trans _ _ ih ih' =>
    obtain ⟨hsame, hmid⟩ := ih hkd
    obtain ⟨hsame', hoth⟩ := ih' hmid
    exact ⟨hsame.trans hsame', hoth⟩

/-! ### Trees and labels -/

/-- What stands at the leaves of a value. -/
inductive Scalar (F : Type) where
  | null
  | bool (value : Bool)
  | number (value : Number F)
  | string (value : String)

/-- A scalar by its text. -/
inductive Shown where
  | null
  | bool (value : Bool)
  | number (text : String)
  | string (value : String)

/-- A scalar by its type. -/
inductive Kind where
  | null
  | bool
  | integer
  | number
  | string
  deriving DecidableEq

def Scalar.shown (showFloat : F → String) : Scalar F → Shown
  | .null => .null
  | .bool value => .bool value
  | .number value => .number (value.show showFloat)
  | .string value => .string value

def Scalar.kind : Scalar F → Kind
  | .null => .null
  | .bool _ => .bool
  | .number value => if value.isInteger then .integer else .number
  | .string _ => .string

namespace Value

mutual

/-- The value as a tree; every array has an order. -/
def tree : Value F → Doc (Scalar F)
  | .null => .leaf .null
  | .bool value => .leaf (.bool value)
  | .number value => .leaf (.number value)
  | .string value => .leaf (.string value)
  | .array items => .array false (treeItems items)
  | .object members => .object (treeMembers members)

def treeItems : List (Value F) → List (Doc (Scalar F))
  | [] => []
  | item :: items => tree item :: treeItems items

def treeMembers : List (String × Value F) → List (String × Doc (Scalar F))
  | [] => []
  | (name, item) :: members => (name, tree item) :: treeMembers members

end

mutual

theorem ordered_tree {L : Type} (f : Scalar F → L) : ∀ value : Value F, (value.tree.map f).Ordered
  | .null | .bool _ | .number _ | .string _ => trivial
  | .array items => ⟨rfl, ordered_treeItems f items⟩
  | .object members => ordered_treeMembers f members

theorem ordered_treeItems {L : Type} (f : Scalar F → L) : ∀ items : List (Value F),
    Doc.OrderedItems (Doc.mapItems f (treeItems items))
  | [] => trivial
  | item :: items => ⟨ordered_tree f item, ordered_treeItems f items⟩

theorem ordered_treeMembers {L : Type} (f : Scalar F → L) : ∀ members : List (String × Value F),
    Doc.OrderedMembers (Doc.mapMembers f (treeMembers members))
  | [] => trivial
  | (_, item) :: members => ⟨ordered_tree f item, ordered_treeMembers f members⟩

end

end Value

end Termivar.ApiEvidence
