/-
# Accounting of retained data

`termivar-scanner/src/wordpress_review/wordfence_v3.rs`: the budget of bytes a
feed may hold on to, and the growth of a vector under it. What a reservation
really gives is the allocator's choice, so it is a parameter, as are the sizes
of the types and the bytes inside of a record.
-/
import Termivar.WordPress.Feed

namespace Termivar.Wordfence

open Checked

/-- `CONSERVATIVE_BTREE_NODE_BYTES_PER_ENTRY`. -/
def btreeNodeBytes : Nat := 64

structure RetainedBudget where
  (total maximum : Nat)
  /-- The reservations made so far: no field of the source, it tells the calls
  of the allocator apart. -/
  reservations : Nat

/-- The vectors that grow under a budget. -/
inductive Phase where
  | parse
  | collision
  | index

/-- What the accounting reads of the machine: capacities, sizes, the bytes
inside of a record and of a notice unless their sum overflows, and the capacity
that the `n`th reservation of a phase gives for the one requested. -/
structure Memory where
  stringCapacity : String → Nat
  (sizeOfString sizeOfImport sizeOfRecord sizeOfNotice sizeOfComponent sizeOfCoordinates : Nat)
  (sizeOfCoordinate sizeOfSpelling : Nat)
  recordDynamicBytes : WordfenceV3Record → Option Nat
  noticeDynamicBytes : WordfenceV3Notice → Option Nat
  reserve : Phase → Nat → Nat → Option Nat

/-- `checked_add` of a `usize` in the accounting. -/
def addBytes (a b : Nat) : Except WordfenceV3ProductionError Nat :=
  okOr (checkedAdd u64Max a b) .retainedDataTooLarge

/-- `checked_mul` of a `usize` in the accounting. -/
def mulBytes (a b : Nat) : Except WordfenceV3ProductionError Nat :=
  okOr (checkedMul u64Max a b) .retainedDataTooLarge

namespace RetainedBudget

def withBase (maximum base : Nat) : Except WordfenceV3ProductionError RetainedBudget :=
  if base > maximum then .error .retainedDataTooLarge else .ok ⟨base, maximum, 0⟩

def add (retained : RetainedBudget) (bytes : Nat) : Except WordfenceV3ProductionError RetainedBudget := do
  let total ← addBytes retained.total bytes
  if total > retained.maximum then throw .retainedDataTooLarge
  return { retained with total }

def addBtreeEntry (retained : RetainedBudget) (storedBytes : Nat) :
    Except WordfenceV3ProductionError RetainedBudget := do
  retained.add (← addBytes storedBytes btreeNodeBytes)

def addNoticeMapEntry (memory : Memory) (retained : RetainedBudget) (mapKey : String)
    (notice : WordfenceV3Notice) : Except WordfenceV3ProductionError RetainedBudget := do
  let bytes ← addBytes memory.sizeOfString memory.sizeOfNotice
  let bytes ← addBytes bytes (memory.stringCapacity mapKey)
  let dynamic ← okOr (memory.noticeDynamicBytes notice) .retainedDataTooLarge
  retained.addBtreeEntry (← addBytes bytes dynamic)

end RetainedBudget

/-- A vector with its capacity. -/
structure Reserved (α : Type) where
  values : List α
  capacity : Nat

namespace Reserved

variable {α : Type}

def empty : Reserved α := ⟨[], 0⟩

/-- `reserve_exact_capacity_with_retained_accounting`. -/
def reserveExact (memory : Memory) (phase : Phase) (size : Nat) (vector : Reserved α)
    (requested : Nat) (retained : RetainedBudget) :
    Except WordfenceV3ProductionError (Reserved α × RetainedBudget) := do
  if requested ≤ vector.capacity then return (vector, retained)
  let retained ← retained.add (← mulBytes (requested - vector.capacity) size)
  let capacity ← okOr (memory.reserve phase retained.reservations requested) .retainedDataTooLarge
  let retained ← retained.add (← mulBytes (capacity - requested) size)
  return ({ vector with capacity }, { retained with reservations := retained.reservations + 1 })

/-- `reserve_one_with_retained_accounting`. -/
def reserveOne (memory : Memory) (phase : Phase) (size : Nat) (vector : Reserved α)
    (retained : RetainedBudget) : Except WordfenceV3ProductionError (Reserved α × RetainedBudget) := do
  if vector.values.length < vector.capacity then return (vector, retained)
  let required ← addBytes vector.values.length 1
  let planned := max (max (min (vector.capacity * 2) u64Max) 4) required
  vector.reserveExact memory phase size planned retained

/-- A vector with one more element, its place accounted for. -/
def push (memory : Memory) (phase : Phase) (size : Nat) (vector : Reserved α) (value : α)
    (retained : RetainedBudget) : Except WordfenceV3ProductionError (Reserved α × RetainedBudget) := do
  let (vector, retained) ← vector.reserveOne memory phase size retained
  return ({ vector with values := vector.values ++ [value] }, retained)

end Reserved

/-! ### What the accounting keeps -/

/-- The error of the accounting. -/
abbrev OverBudget (e : WordfenceV3ProductionError) : Prop := e = .retainedDataTooLarge

/-- A reservation gives what was asked for, or more. -/
def Memory.Grants (memory : Memory) : Prop :=
  ∀ phase n requested capacity, memory.reserve phase n requested = some capacity → requested ≤ capacity

theorem addBytes_admits (a b : Nat) : wp (addBytes a b) (fun c => c = a + b) OverBudget := by
  simp only [addBytes, wp_okOr, OverBudget, implies_true, and_true]
  exact fun _ h => (checkedAdd_eq_some.mp h).2

theorem mulBytes_admits (a b : Nat) : wp (mulBytes a b) (fun c => c = a * b) OverBudget := by
  unfold mulBytes checkedMul
  split_ifs <;> rfl

namespace RetainedBudget

/-- `r'` comes after `r`: the maximum stays, and the total has kept to it. -/
def Keeps (r r' : RetainedBudget) : Prop :=
  r'.maximum = r.maximum ∧ (r.total ≤ r.maximum → r'.total ≤ r'.maximum)

variable (retained : RetainedBudget)

theorem Keeps.refl : Keeps retained retained := ⟨rfl, id⟩

variable {retained} {r r' : RetainedBudget}

theorem Keeps.trans (h : Keeps retained r) (h' : Keeps r r') : Keeps retained r' :=
  ⟨h'.1.trans h.1, fun hle => h'.2 (h.2 hle)⟩

/-- `bytes` were added, within the maximum. -/
structure Added (retained : RetainedBudget) (bytes : Nat) (r : RetainedBudget) : Prop where
  total : r.total = retained.total + bytes
  maximum : r.maximum = retained.maximum
  bounded : r.total ≤ retained.maximum

theorem Added.keeps {bytes : Nat} (h : Added retained bytes r) : Keeps retained r :=
  ⟨h.maximum, fun _ => h.maximum ▸ h.bounded⟩

theorem withBase_admits (maximum base : Nat) :
    wp (withBase maximum base) (fun r => r = ⟨base, maximum, 0⟩ ∧ base ≤ maximum)
      OverBudget := by
  simp [withBase, OverBudget]

theorem add_admits (retained : RetainedBudget) (bytes : Nat) :
    wp (retained.add bytes) (Added retained bytes) OverBudget := by
  rw [add, wp_bind]
  refine wp_imp (addBytes_admits _ _) fun total htot => ?_
  simp only [wp_rules, OverBudget, implies_true, true_and, not_lt]
  exact fun hle => ⟨htot, rfl, hle⟩

theorem addBtreeEntry_admits (retained : RetainedBudget) (bytes : Nat) :
    wp (retained.addBtreeEntry bytes) (Added retained (bytes + btreeNodeBytes)) OverBudget := by
  rw [addBtreeEntry, wp_bind]
  refine wp_imp (addBytes_admits _ _) fun _ h => ?_
  subst h
  exact add_admits _ _

theorem addNoticeMapEntry_admits (memory : Memory) (retained : RetainedBudget) (mapKey : String)
    (notice : WordfenceV3Notice) :
    wp (retained.addNoticeMapEntry memory mapKey notice) (Keeps retained) OverBudget := by
  simp only [addNoticeMapEntry, wp_rules]
  refine wp_imp (addBytes_admits _ _) fun _ _ => ?_
  refine wp_imp (addBytes_admits _ _) fun _ _ => ⟨fun _ _ => ?_, fun _ => trivial⟩
  refine wp_imp (addBytes_admits _ _) fun _ _ => ?_
  exact wp_imp (addBtreeEntry_admits _ _) fun _ h => h.keeps

end RetainedBudget

/-- `vector` became `next.1`, with the elements `values`, and the budget paid
for all of its growth. -/
structure Grown {α : Type} (memory : Memory) (size : Nat) (vector : Reserved α)
    (retained : RetainedBudget) (values : List α) (next : Reserved α × RetainedBudget) : Prop where
  values : next.1.values = values
  keeps : retained.Keeps next.2
  exact : memory.Grants → vector.capacity ≤ next.1.capacity ∧
    next.2.total + vector.capacity * size = retained.total + next.1.capacity * size

namespace Reserved

variable {α : Type} {memory : Memory} {phase : Phase} {size : Nat} {vector : Reserved α}
  {retained : RetainedBudget}

theorem Grown.refl : Grown memory size vector retained vector.values (vector, retained) :=
  ⟨rfl, .refl _, fun _ => ⟨le_rfl, rfl⟩⟩

theorem reserveExact_admits (requested : Nat) :
    wp (vector.reserveExact memory phase size requested retained)
      (Grown memory size vector retained vector.values) OverBudget := by
  unfold reserveExact
  split_ifs with hroom
  · exact Grown.refl
  · simp only [wp_rules, OverBudget, implies_true, and_true]
    refine wp_imp (mulBytes_admits _ _) fun planned hplan => ?_
    refine wp_imp (RetainedBudget.add_admits _ _) fun r hr capacity hcap => ?_
    refine wp_imp (mulBytes_admits _ _) fun unplanned hunpl => ?_
    refine wp_imp (RetainedBudget.add_admits _ _) fun r' hr' => ?_
    refine ⟨rfl, hr.keeps.trans hr'.keeps, fun hmem => ?_⟩
    -- the growth that was planned, and what the allocator gave beyond it
    obtain ⟨more, rfl⟩ := Nat.exists_eq_add_of_le (hmem _ _ _ _ hcap)
    obtain ⟨grown, rfl⟩ := Nat.exists_eq_add_of_le (Nat.le_of_not_le hroom)
    refine ⟨by simp only; omega, ?_⟩
    simp only [hr'.total, hr.total, hplan, hunpl, Nat.add_sub_cancel_left]
    ring

/-- **A place more is paid for.** -/
theorem push_admits (value : α) :
    wp (vector.push memory phase size value retained)
      (Grown memory size vector retained (vector.values ++ [value])) OverBudget := by
  have hone : wp (vector.reserveOne memory phase size retained)
      (Grown memory size vector retained vector.values) OverBudget := by
    unfold reserveOne
    split_ifs with hroom
    · exact Grown.refl
    · rw [wp_bind]
      exact wp_imp (addBytes_admits _ _) fun _ _ => reserveExact_admits _
  rw [push, wp_bind]
  exact wp_imp hone fun next h => ⟨congrArg (· ++ [value]) h.values, h.keeps, h.exact⟩

theorem push_grown {value : α} {next : Reserved α × RetainedBudget}
    (h : vector.push memory phase size value retained = .ok next) :
    Grown memory size vector retained (vector.values ++ [value]) next :=
  of_wp (push_admits value) h

end Reserved
end Termivar.Wordfence
