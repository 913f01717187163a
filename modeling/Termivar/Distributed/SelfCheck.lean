/-
# The coordinator's self-check

`check_state_invariants` walks the records once, collecting the queue keys and
the number of leases of each worker generation, and compares them with the
queue set and the workers. `Observed.Of` says what has been collected after
some of the records, and `Inv.checks` that a state with the invariant passes.
-/
import Termivar.Distributed.Invariant

namespace Termivar.Distributed

open Checked List


/-- The record is leased to the holder. -/
def TaskEntry.heldBy (e : TaskEntry) (holder : LeaseHolder) : Bool :=
  e.task.lease.any fun lease => LeaseHolder.mk lease.workerId lease.workerGeneration = holder

variable {done : List (String × TaskEntry)} {p : String × TaskEntry} {id : String}
  {rest : List (String × TaskEntry)}

/-- A worker's leases all name its generation. -/
theorem Inv.leaseCount_eq_heldBy {s : CoordinatorState} (h : Inv s) {w : WorkerNode}
    (hw : s.workers[id]? = some w) :
    leaseCount s id = countOf s.tasks fun _ e => e.heldBy ⟨id, w.generation⟩ := by
  refine countOf_congr fun x e he => ?_
  cases hl : e.task.lease with
  | none => simp [TaskEntry.holds, TaskEntry.heldBy, hl]
  | some lease =>
    simp only [TaskEntry.holds, TaskEntry.heldBy, hl, Option.any_some, LeaseHolder.mk.injEq,
      decide_eq_decide]
    refine ⟨fun hid => ⟨hid, ?_⟩, And.left⟩
    obtain ⟨w', hw', hg⟩ := h.holder he hl
    rw [hid, hw] at hw'
    cases hw'
    exact hg.symm

/-- What the self-check has seen after the records `done`. -/
structure Observed.Of (o : Observed) (done : List (String × TaskEntry)) : Prop where
  queue : ∀ key, key ∈ o.queue ↔ ∃ p ∈ done, p.2.queueKey = some key
  count : ∀ holder, o.workerLeases[holder]?.getD 0 = done.countP fun p => p.2.heldBy holder
  pos : ∀ {holder : LeaseHolder} {n : Nat}, o.workerLeases[holder]? = some n → 0 < n

theorem Observed.Of.skip {o : Observed} (h : o.Of done)
    (hkey : p.2.queueKey = none) (hlease : p.2.task.lease = none) :
    o.Of (done ++ [p]) where
  queue key := by simp [h.queue, hkey, or_and_right, exists_or]
  count holder := by simp [h.count, TaskEntry.heldBy, hlease]
  pos := h.pos

theorem Observed.Of.queued {o : Observed} (h : o.Of done)
    {key : QueueKey} (hkey : p.2.queueKey = some key)
    (hlease : p.2.task.lease = none) :
    Observed.Of { o with queue := o.queue.insert key } (done ++ [p]) where
  queue k := by
    simp only [mem_insert_iff, h.queue, mem_append, mem_singleton, or_and_right,
      exists_or, exists_eq_left, hkey, Option.some.injEq, eq_comm (a := k)]
    exact or_comm
  count holder := by simp [h.count, TaskEntry.heldBy, hlease]
  pos := h.pos

theorem Observed.Of.leased {o : Observed} (h : o.Of done)
    {lease : TaskLease} (hkey : p.2.queueKey = none)
    (hlease : p.2.task.lease = some lease) {holder : LeaseHolder}
    (hholder : holder = ⟨lease.workerId, lease.workerGeneration⟩) :
    Observed.Of { o with workerLeases :=
      o.workerLeases.insert holder (o.workerLeases[holder]?.getD 0 + 1) } (done ++ [p]) where
  queue key := by simp [h.queue, hkey, or_and_right, exists_or]
  count x := by
    have hheld : p.2.heldBy x = decide (holder = x) := by
      simp [TaskEntry.heldBy, hlease, hholder]
    rw [countP_append, countP_singleton, hheld, get_insert]
    by_cases hx : holder = x
    · simp [hx, h.count]
    · simp [hx, h.count]
  pos {x n} hn := by
    rw [get_insert] at hn
    split_ifs at hn with hx
    · cases hn
      exact Nat.succ_pos _
    · exact h.pos hn

/-- A queued record's key is not among those seen before it. -/
theorem Inv.key_fresh {s : CoordinatorState} (h : Inv s) {o : Observed}
    {e : TaskEntry} {key : QueueKey}
    (hspl : done ++ (id, e) :: rest = s.tasks.toList) (ho : o.Of done)
    (hkey : e.queueKey = some key) : key ∉ o.queue := by
  rw [ho.queue]
  rintro ⟨⟨id', e'⟩, hp, hk'⟩
  have he : s.tasks[id]? = some e := mem_toList.mp (by simp [← hspl])
  have he' : s.tasks[id']? = some e' := mem_toList.mp (by simp [← hspl, hp])
  have hid := h.key_unique he he' hkey hk'
  have hnd := keys_nodup s.tasks
  rw [← hspl, map_append, map_cons, nodup_append] at hnd
  exact hnd.2.2 id' (mem_map.mpr ⟨_, hp, rfl⟩) id mem_cons_self hid.symm

/-- The leases seen of one worker are no more than the largest capacity. -/
theorem Inv.seen_le {s : CoordinatorState} (h : Inv s) {o : Observed}
    {e : TaskEntry} {lease : TaskLease}
    (hspl : done ++ (id, e) :: rest = s.tasks.toList) (ho : o.Of done)
    (hl : e.task.lease = some lease) :
    o.workerLeases[LeaseHolder.mk lease.workerId lease.workerGeneration]?.getD 0 ≤
      maxWorkerCapacity := by
  have he : s.tasks[id]? = some e := mem_toList.mp (by simp [← hspl])
  obtain ⟨w, hw, hg⟩ := h.holder he hl
  obtain ⟨-, hcnt, hcap, hmax⟩ := h.workers hw
  rw [h.leaseCount_eq_heldBy hw, hg, countOf, ← hspl, countP_append] at hcnt
  rw [ho.count]
  omega

/-- One record passes, and the self-check has seen it. -/
theorem Inv.checkEntry_spec {s : CoordinatorState} (h : Inv s) {o : Observed}
    (hspl : done ++ p :: rest = s.tasks.toList) (ho : o.Of done) :
    wp (checkEntry o p.2) (fun o' => o'.Of (done ++ [p])) (fun _ => False) := by
  obtain ⟨id, e⟩ := p
  have he : s.tasks[id]? = some e := mem_toList.mp (by simp [← hspl])
  have hrec := h.records he
  simp only [checkEntry, wp_rules]
  refine ⟨fun h0 => hrec.version h0, fun _ => ?_⟩
  by_cases hend : e.task.status.isActive = false
  · obtain ⟨h1, h2, h3⟩ := hrec.ended hend
    have hskip := ho.skip (p := (id, e)) h1 h2
    cases hs : e.task.status <;> simp [hs, TaskStatus.isActive] at hend <;>
      simpa [h1, h2, h3] using hskip
  by_cases hq : e.task.status = .queued
  · obtain ⟨h1, h2, key, hkey, hid⟩ := hrec.queued hq
    have hfsh := h.key_fresh hspl ho hkey
    have hqueued := ho.queued (p := (id, e)) hkey h1
    simp only [hq, wp_rules, hkey, h1, h2, hrec.taskId]
    simpa [hid, hfsh] using hqueued
  · have hls : e.task.status = .leased ∨ e.task.status = .running := by
      cases hs : e.task.status <;> simp_all [TaskStatus.isActive]
    obtain ⟨h1, lease, hl, -, h3, h4, h5⟩ := hrec.leased hls
    have hle := h.seen_le hspl ho hl
    have hleased := ho.leased (p := (id, e)) h1 hl rfl
    have hadd : checkedAdd u32Max
        (o.workerLeases[LeaseHolder.mk lease.workerId lease.workerGeneration]?.getD 0) 1 =
        some (o.workerLeases[LeaseHolder.mk lease.workerId lease.workerGeneration]?.getD 0 + 1) := by
      refine checkedAdd_eq_some.mpr ⟨?_, rfl⟩
      have : maxWorkerCapacity + 1 ≤ u32Max := by decide
      omega
    rcases hls with hs | hs <;>
      simpa [hs, wp_okOr, h1, hl, h3, h4, h5, nextU32, hadd] using hleased

section Seen

variable {s : CoordinatorState} {o : Observed}

theorem Inv.seen_queue (h : Inv s) (ho : o.Of s.tasks.toList) : o.queue = s.queue := by
  refine Std.ExtTreeSet.ext_mem fun key => ?_
  rw [ho.queue, h.queue]
  simp only [Prod.exists, mem_toList]

theorem Inv.checkWorker_spec (h : Inv s) (ho : o.Of s.tasks.toList) {id : String} {w : WorkerNode}
    (hw : s.workers[id]? = some w) :
    wp (checkWorker o.workerLeases w) (fun _ => True) (fun _ => False) := by
  obtain ⟨hid, hcnt, hcap, -⟩ := h.workers hw
  rw [h.leaseCount_eq_heldBy hw] at hcnt
  simp only [checkWorker, wp_rules, hid, ho.count]
  refine ⟨?_, fun _ => trivial⟩
  rintro (hne | hlt)
  · exact hne hcnt
  · omega

/-- A holder seen is the holder of a record's lease. -/
theorem Inv.checkHolder_spec (h : Inv s) (ho : o.Of s.tasks.toList) {holder : LeaseHolder} {n : Nat}
    (hn : o.workerLeases[holder]? = some n) :
    wp (checkHolder s holder) (fun _ => True) (fun _ => False) := by
  have hpos : 0 < s.tasks.toList.countP fun p => p.2.heldBy holder := by
    rw [← ho.count, hn]
    exact ho.pos hn
  obtain ⟨⟨id, e⟩, hp, hheld⟩ := countP_pos_iff.mp hpos
  obtain ⟨lease, hl, rfl⟩ : ∃ lease, e.task.lease = some lease ∧
      LeaseHolder.mk lease.workerId lease.workerGeneration = holder := by
    simpa [TaskEntry.heldBy, Option.any_eq_true] using hheld
  obtain ⟨w, hw, hg⟩ := h.holder (mem_toList.mp hp) hl
  simp [checkHolder, hw, hg]

end Seen

/-- **The self-check passes.** -/
theorem Inv.checks {s : CoordinatorState} (h : Inv s) : checkStateInvariants s = .ok () := by
  refine eq_ok_of_wp ?_
  have hterm := h.terminal
  have hact := h.active
  simp only [checkStateInvariants, wp_rules]
  refine ⟨fun hb => ?_, fun _ => ⟨fun hc => ?_, fun _ => ?_⟩⟩
  · have h1 := h.recordBound
    have h2 := h.activeBound
    have h3 := h.queueBound
    have h4 := h.terminalBound
    have h5 := h.workerBound
    omega
  · have hcnt : (countOf s.tasks fun _ e => e.task.status.isActive) = s.activeTasks := hact.symm
    omega
  · refine wp_imp (wp_foldlM (I := fun rest o => ∃ done, done ++ rest = s.tasks.toList ∧ o.Of done)
      ⟨[], rfl, ⟨by simp, by simp, by simp⟩⟩ ?_) ?_
    · rintro p rest o ⟨done, hspl, ho⟩
      refine wp_imp (h.checkEntry_spec hspl ho) fun o' ho' => ?_
      exact ⟨done ++ [p], by simpa using hspl, ho'⟩
    · rintro o ⟨done, hspl, ho⟩
      rw [append_nil] at hspl
      subst hspl
      refine ⟨fun hne => hne (h.seen_queue ho), fun _ => ?_⟩
      refine wp_imp (wp_each (P := fun _ => True) fun p hp => ?_)
        (fun _ _ => wp_imp (wp_each (P := fun _ => True) fun p hp => ?_) (fun _ _ => trivial))
      · exact h.checkWorker_spec ho (mem_toList.mp hp)
      · exact h.checkHolder_spec ho (mem_toList.mp hp)

end Termivar.Distributed
