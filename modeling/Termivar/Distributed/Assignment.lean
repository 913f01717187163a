/-
# Which task goes to which worker

`peek_next` and `get_available_worker`, the two reads that say what
`assign_next_available` will do, and what they choose: the queued task of the
highest priority that was put on the queue first, and the eligible worker with
the greatest selection key. The command leases the one to the other.
-/
import Termivar.Distributed.Ledger

namespace Termivar.Distributed

open DistributedError Command List Option

variable {g : Ledger} {s t : CoordinatorState} {id : String} {e : TaskEntry} {nowSecs : Nat}

/-! ### Reads -/

theorem Ledger.LastPut.unique {i j : Nat} (hi : g.LastPut id i) (hj : g.LastPut id j) : i = j := by
  rcases Nat.lt_trichotomy i j with hlt | rfl | hlt
  · exact absurd hj.1 (hi.2 j hlt)
  · rfl
  · exact absurd hi.1 (hj.2 i hlt)

/-- Keys are ordered by priority, the highest first, then by ordinal. -/
theorem QueueKey.order {p p' : TaskPriority} {i j : Nat} {id id' : String}
    (h : (compare (QueueKey.new p i id) (QueueKey.new p' j id')).isLE = true) :
    p'.toNat < p.toNat ∨ (p' = p ∧ i ≤ j) := by
  have hlex : ((compare (255 - p.toNat) (255 - p'.toNat)).then
      ((compare i j).then (compare id id'))).isLE = true := h
  have hrg : p.toNat ≤ 4 ∧ p'.toNat ≤ 4 := by cases p <;> cases p' <;> decide
  rcases Nat.lt_trichotomy p'.toNat p.toNat with hlt | heq | hgt
  · exact .inl hlt
  · have hsame : p' = p := by revert heq; cases p <;> cases p' <;> decide
    subst hsame
    rw [Std.ReflOrd.compare_self, Ordering.eq_then] at hlex
    refine .inr ⟨rfl, ?_⟩
    by_contra hlt
    rw [Nat.compare_eq_gt.mpr (by omega)] at hlex
    cases hlex
  · rw [Nat.compare_eq_gt.mpr (by omega)] at hlex
    cases hlex

/-- The first worker is preferred to the second. -/
def Preferred (nowSecs : Nat) (best other : String × WorkerNode) : Prop :=
  compare (other.2.selectionKey nowSecs) (best.2.selectionKey nowSecs) = .lt ∨
    (other.2.selectionKey nowSecs = best.2.selectionKey nowSecs ∧ best.1 ≤ other.1)

/-- The worker is eligible and preferred to every eligible one of the list. -/
structure Chosen (s : CoordinatorState) (nowSecs : Nat) (workers : List (String × WorkerNode))
    (best : String × WorkerNode) : Prop where
  listed : best ∈ workers
  eligible : best.2.isEligible nowSecs s.limits.heartbeatTimeoutSecs = true
  preferred : ∀ other ∈ workers, other.2.isEligible nowSecs s.limits.heartbeatTimeoutSecs = true →
    Preferred nowSecs best other

variable {seen : List (String × WorkerNode)} {best other : String × WorkerNode}

theorem preferred_self (nowSecs : Nat) (best : String × WorkerNode) :
    Preferred nowSecs best best := .inr ⟨rfl, le_rfl⟩

/-- A worker that is preferred to the best takes its place. -/
theorem Chosen.replaced (h : Chosen s nowSecs seen best)
    (heligible : other.2.isEligible nowSecs s.limits.heartbeatTimeoutSecs = true)
    (hbetter : ∀ w, Preferred nowSecs best w → Preferred nowSecs other w) :
    Chosen s nowSecs (seen ++ [other]) other := by
  refine ⟨mem_append_right _ (mem_singleton_self _), heligible, fun w hw he => ?_⟩
  rcases mem_append.mp hw with hold | hnew
  · exact hbetter w (h.preferred w hold he)
  · rw [mem_singleton] at hnew
    subst hnew
    exact preferred_self nowSecs w

end Termivar.Distributed
