/-
# The coordinator's loops

The recovery of leases, the pruning of workers and the expiry of tasks each
check every task or worker they will touch before they touch the first. Here:
what the checks establish of the whole list (`RecoveryReady`, `PruneReady`,
`ExpiryReady`), that one turn of the loop leaves it established for the rest,
and so that the loop cannot fail.
-/
import Termivar.Distributed.Effects

namespace Termivar.Distributed

open DistributedError Command Option

variable {s t : CoordinatorState}

/-! ### The leased tasks -/

variable {id : String} {e : TaskEntry} {w : WorkerNode} {lease : TaskLease}

theorem mem_leasedTaskIds {predicate : TaskLease → Bool} :
    id ∈ leasedTaskIds s predicate ↔ ∃ (e : TaskEntry) (lease : TaskLease),
      s.tasks[id]? = some e ∧ e.task.lease = some lease ∧ predicate lease = true := by
  simp only [leasedTaskIds, List.mem_map, (List.perm_insertionSort _ _).mem_iff, List.mem_filterMap,
    Prod.exists, mem_toList, map_eq_some_iff, filter_eq_some_iff, Prod.mk.injEq]
  constructor
  · rintro ⟨_, _, ⟨_, e, he, lease, ⟨hl, hp⟩, -, rfl⟩, rfl⟩
    exact ⟨e, lease, he, hl, hp⟩
  · rintro ⟨e, lease, he, hl, hp⟩
    exact ⟨lease.leaseId, id, ⟨id, e, he, lease, ⟨hl, hp⟩, rfl, rfl⟩, rfl⟩

theorem leasedTaskIds_nodup (predicate : TaskLease → Bool) :
    (leasedTaskIds s predicate).Nodup := by
  unfold leasedTaskIds
  refine ((List.perm_insertionSort _ _).map _).nodup_iff.mpr ?_
  have hkeys : s.tasks.toList.Pairwise fun p q => p.1 ≠ q.1 := List.pairwise_map.mp (keys_nodup _)
  refine List.pairwise_map.mpr (hkeys.filterMap _ ?_)
  rintro ⟨id, e⟩ ⟨id', e'⟩ hne x hx y hy
  simp only [map_eq_some_iff] at hx hy
  obtain ⟨-, -, rfl⟩ := hx
  obtain ⟨-, -, rfl⟩ := hy
  exact hne

/-! ### Recovery: the checks -/

/-- The record of the task is leased and its counters can take the recovery. -/
structure Recoverable (s : CoordinatorState) (id : String) (e : TaskEntry) (lease : TaskLease) :
    Prop where
  record : s.tasks[id]? = some e
  leased : e.task.lease = some lease
  version : e.task.recordVersion < u64Max
  retry : e.task.retryCount < s.limits.maxRetries →
    e.task.taskGeneration < u64Max ∧ e.task.retryCount < u32Max

/-- What the recovery preflight establishes of the tasks to recover. -/
structure RecoveryReady (s : CoordinatorState) (ids : List String) : Prop where
  nodup : ids.Nodup
  tasks : ∀ id ∈ ids, ∃ e lease, Recoverable s id e lease
  room : s.queue.size + ids.countP (hasRetry s) ≤ s.limits.maxQueuedTasks
  ordinals : s.nextEnqueueOrdinal + ids.countP (hasRetry s) ≤ u64Max

/-- The task is leased to the worker. -/
def leasedTo (s : CoordinatorState) (workerId taskId : String) : Bool :=
  s.tasks[taskId]?.any (·.holds workerId)

/-- The releases counted for each worker are those of the tasks so far. -/
structure Counted (s : CoordinatorState) (done : List String) (counts : BTreeMap String Nat) :
    Prop where
  tasks : ∀ id ∈ done, ∃ e lease, Recoverable s id e lease
  count : ∀ w, counts[w]?.getD 0 = done.countP (leasedTo s w)
  known : ∀ {w : String} {n : Nat}, counts[w]? = some n →
    ∃ node : WorkerNode, s.workers[w]? = some node

theorem Counted.snoc (h : Inv s) {done : List String} {counts : BTreeMap String Nat}
    (hc : Counted s done counts) (hr : Recoverable s id e lease) :
    Counted s (done ++ [id])
      (counts.insert lease.workerId (counts[lease.workerId]?.getD 0 + 1)) where
  tasks x hx := by
    rcases List.mem_append.mp hx with hx | hx
    · exact hc.tasks x hx
    · rw [List.mem_singleton.mp hx]
      exact ⟨e, lease, hr⟩
  count w := by
    have hto : leasedTo s w id = decide (lease.workerId = w) := by
      simp [leasedTo, hr.record, holds_of_lease hr.leased]
    rw [List.countP_append, List.countP_singleton, hto, get_insert]
    by_cases hw : lease.workerId = w
    · simp [hw, hc.count]
    · simp [hw, hc.count]
  known {w n} hn := by
    rw [get_insert] at hn
    split_ifs at hn with hw
    · obtain ⟨node, hnode, -⟩ := h.holder hr.record hr.leased
      exact ⟨node, hw ▸ hnode⟩
    · exact hc.known hn

theorem preflightRecoveryTask_spec (h : Inv s) {done : List String} {counts : BTreeMap String Nat}
    (hc : Counted s done counts) (he : s.tasks[id]? = some e) (hl : e.task.lease = some lease) :
    Checked.wp (preflightRecoveryTask s counts id) (fun counts' => Counted s (done ++ [id]) counts')
      (fun e => ¬ e.IsStateInvariant) := by
  obtain ⟨w, hto⟩ := h.leasedTo he hl
  have hstat := (h.records he).status_of_lease hl
  simp only [preflightRecoveryTask, he, okOr, Checked.wp_rules, hl, hto.preflight h, wp_nextCounter,
    wp_nextU32]
  simp only [IsStateInvariant, not_true, not_false_eq_true, implies_true, and_true]
  refine ⟨fun hne => ?_, fun _ hv => ⟨fun hr hg hu _ => ?_, fun hr _ => ?_⟩⟩
  · rcases hstat with hs | hs
    · exact hne.1 hs
    · exact hne.2 hs
  · exact hc.snoc h ⟨he, hl, hv, fun _ => ⟨hg, hu⟩⟩
  · exact hc.snoc h ⟨he, hl, hv, fun hr' => (hr hr').elim⟩

/-- No worker releases more than it holds. -/
theorem preflightReleaseCount_spec (h : Inv s) {ids : List String} (hnd : ids.Nodup)
    {counts : BTreeMap String Nat} (hc : Counted s ids counts) {w : String} {n : Nat}
    (hn : counts[w]? = some n) :
    Checked.wp (preflightReleaseCount s (w, n)) (fun _ => True) (fun e => ¬ e.IsStateInvariant) := by
  obtain ⟨node, hnode⟩ := hc.known hn
  have hcnt : n = ids.countP (leasedTo s w) := by rw [← hc.count, hn]; rfl
  have hle : n ≤ node.currentTasks := by
    rw [hcnt, (h.workers hnode).2.1]
    exact countP_keys_le_countOf hnd fun e : TaskEntry => e.holds w
  simp [preflightReleaseCount, hnode, okOr, hle.not_gt]

/-- **The recovery preflight.** It fails only for want of room or of a
counter, and establishes what the loop needs. -/
theorem preflightRecovery_spec (h : Inv s) {ids : List String} (hnd : ids.Nodup)
    (hids : ∀ id ∈ ids, ∃ (e : TaskEntry) (lease : TaskLease),
      s.tasks[id]? = some e ∧ e.task.lease = some lease) :
    Checked.wp (preflightRecovery s ids) (fun _ => RecoveryReady s ids)
      (fun e => ¬ e.IsStateInvariant) := by
  simp only [preflightRecovery, Checked.wp_rules, checkedAdd_eq_some, IsStateInvariant,
    not_false_eq_true, implies_true, and_true, true_and]
  rintro - _ ⟨hord, rfl⟩ hroom
  refine Checked.wp_imp (Checked.wp_foldlM
    (I := fun rest counts => ∃ done, done ++ rest = ids ∧ Counted s done counts)
    ⟨[], rfl, ⟨by simp, by simp, by simp⟩⟩ ?_) ?_
  · rintro id rest counts ⟨done, hspl, hc⟩
    obtain ⟨e, lease, he, hl⟩ := hids id (by simp [← hspl])
    refine Checked.wp_imp (preflightRecoveryTask_spec h hc he hl) fun counts' hc' => ?_
    exact ⟨done ++ [id], by simpa using hspl, hc'⟩
  · rintro counts ⟨done, hspl, hc⟩
    rw [List.append_nil] at hspl
    subst hspl
    refine Checked.wp_imp (Checked.wp_each (P := fun _ => True) fun p hp => ?_) fun _ _ => ?_
    · exact preflightReleaseCount_spec h hnd hc (mem_toList.mp hp)
    · exact ⟨hnd, hc.tasks, Nat.not_lt.mp hroom, hord⟩

/-! ### Recovery: the loop -/

/-- The records of the tasks have given up their leases; the others are as
they were. -/
def Released (s : CoordinatorState) (ids : List String) (t : CoordinatorState) : Prop :=
  ∀ {id : String} {e' : TaskEntry}, t.tasks[id]? = some e' →
    e'.task.lease = none ∨ (id ∉ ids ∧ s.tasks[id]? = some e')

/-- The workers are still there, under the same generations. -/
def SameGenerations (s t : CoordinatorState) : Prop :=
  ∀ id : String, t.workers[id]?.map (·.generation) = s.workers[id]?.map (·.generation)

/-- One recovered task: its record has given up the lease, and what the next
turns need is untouched. -/
structure Recovered (s : CoordinatorState) (id : String) (t : CoordinatorState) : Prop where
  inv : Inv t
  keeps : Keeps s t
  record : ∃ e' : TaskEntry, t.tasks = s.tasks.insert id e' ∧ e'.task.lease = none
  generations : SameGenerations s t
  room : t.queue.size ≤ s.queue.size + (hasRetry s id).toNat
  ordinals : t.nextEnqueueOrdinal = s.nextEnqueueOrdinal + (hasRetry s id).toNat

theorem sameGenerations_insert (w' : WorkerNode) (hw : s.workers[id]? = some w)
    (ht : t.workers = s.workers.insert id w') (hg : w'.generation = w.generation) :
    SameGenerations s t := by
  intro x
  rw [ht, get_insert]
  split_ifs with hx
  · rw [← hx, hw, map_some, map_some, hg]
  · rfl

theorem applyRecovery_spec (h : Inv s) (hr : Recoverable s id e lease)
    (hroom : s.queue.size + (hasRetry s id).toNat ≤ s.limits.maxQueuedTasks)
    (hord : s.nextEnqueueOrdinal + (hasRetry s id).toNat ≤ u64Max) (nowSecs : Nat) :
    wp (applyRecovery id nowSecs) (fun _ t => Recovered s id t) (fun _ _ => False) False s := by
  obtain ⟨w, hto⟩ := h.leasedTo hr.record hr.leased
  have hrec := h.records hr.record
  have hrty : hasRetry s id = decide (e.task.retryCount < s.limits.maxRetries) := by
    simp [hasRetry, hr.record]
  rw [hrty] at hroom hord
  simp only [applyRecovery, wp_rules, hr.record, hr.leased, okOr, Checked.wp_ok,
    wp_nextCounter, wp_nextU32]
  refine ⟨fun _ => ⟨fun hlt => ?_, fun hge => ?_⟩, fun hge => absurd hr.version hge.not_gt⟩
  · simp only [hlt, decide_true, Bool.toNat_true] at hroom hord hrty
    obtain ⟨hg, hu⟩ := hr.retry hlt
    refine ⟨fun _ => ⟨fun _ => ⟨fun _ => ?_, fun hge => absurd hord ?_⟩,
      fun hge => absurd hu hge.not_gt⟩, fun hge => absurd hg hge.not_gt⟩
    · rw [wp_of_eq_ok (requeueTask_eq h hto _ _ _ _ _)]
      refine
        { inv := h.requeue hto (hrec.requeued hr.leased rfl _ _ _) rfl (by omega) _
          keeps := Keeps.requeue h hto (by rfl) _ _
          record := ⟨_, by rw [CoordinatorState.requeue, hto.taskId h], rfl⟩
          generations := sameGenerations_insert w.released hto.worker rfl rfl
          room := ?_
          ordinals := ?_ }
      · rw [hrty]
        exact Std.ExtTreeSet.size_insert_le
      · rw [hrty]
        rfl
    · omega
  · rw [wp_of_eq_ok (terminalizeLeasedTask_eq h hto .failed rfl _ _)]
    simp only [hge, decide_false] at hrty
    exact
      { inv := h.endLeased hto
          (hrec.leasedStopped hr.leased .failed rfl (by decide) _ _ rfl rfl rfl) rfl
        keeps := Keeps.endLeased h hto rfl
        record := ⟨_, by rw [CoordinatorState.endLeased, hto.taskId h], rfl⟩
        generations := sameGenerations_insert w.released hto.worker rfl rfl
        room := Nat.le_add_right _ _
        ordinals := by rw [hrty]; rfl }

/-- The tasks still to recover are as ready after one turn. -/
theorem RecoveryReady.next {ids : List String} (hrdy : RecoveryReady s (id :: ids))
    (hstep : Recovered s id t) : RecoveryReady t ids := by
  obtain ⟨e', ht, -⟩ := hstep.record
  obtain ⟨hid, hnd⟩ := List.nodup_cons.mp hrdy.nodup
  have hsame : ∀ x ∈ ids, t.tasks[x]? = s.tasks[x]? := fun x hx => by
    rw [ht, get_insert_ne]
    rintro rfl
    exact hid hx
  have hcnt : ids.countP (hasRetry t) = ids.countP (hasRetry s) :=
    List.countP_congr fun x hx => by rw [hasRetry, hasRetry, hsame x hx, hstep.keeps.limits]
  have hcons : (id :: ids).countP (hasRetry s) =
      ids.countP (hasRetry s) + (hasRetry s id).toNat := by
    rw [List.countP_cons]
    cases hasRetry s id <;> rfl
  have hroom := hrdy.room
  have hord := hrdy.ordinals
  have hr := hstep.room
  have ho := hstep.ordinals
  refine ⟨hnd, fun x hx => ?_, ?_, ?_⟩
  · obtain ⟨e, lease, hrec⟩ := hrdy.tasks x (List.mem_cons_of_mem _ hx)
    refine ⟨e, lease, (hsame x hx).trans hrec.record, hrec.leased, hrec.version, fun hlt => ?_⟩
    rw [hstep.keeps.limits] at hlt
    exact hrec.retry hlt
  · rw [hstep.keeps.limits, hcnt]
    omega
  · rw [hcnt]
    omega

/-- **The recovery loop.** It runs to its end, and gives back every lease. -/
theorem recoverTasks_spec (nowSecs : Nat) : ∀ {ids : List String} {s : CoordinatorState} (r f : Nat),
    Inv s → RecoveryReady s ids →
    wp (recoverTasks nowSecs ids r f)
      (fun _ t => Inv t ∧ Keeps s t ∧ Released s ids t ∧ SameGenerations s t)
      (fun _ _ => False) False s
  | [], s, _, _, h, _ =>
    ⟨h, Keeps.refl s, fun he => Or.inr ⟨List.not_mem_nil, he⟩, fun _ => rfl⟩
  | id :: ids, s, r, f, h, hrdy => by
    obtain ⟨e, lease, hrec⟩ := hrdy.tasks id List.mem_cons_self
    have hroom := hrdy.room
    have hord := hrdy.ordinals
    rw [List.countP_cons] at hroom hord
    have hbit : (if hasRetry s id = true then 1 else 0) = (hasRetry s id).toNat := by
      cases hasRetry s id <;> rfl
    rw [hbit] at hroom hord
    simp only [recoverTasks, wp_bind]
    refine wp_mono (applyRecovery_spec h hrec (by omega) (by omega) nowSecs) ?_
      (fun _ _ he => he) (fun hp => hp)
    intro disposition t hstep
    have hrest : ∀ r f, wp (recoverTasks nowSecs ids r f)
        (fun _ u => Inv u ∧ Keeps s u ∧ Released s (id :: ids) u ∧ SameGenerations s u)
        (fun _ _ => False) False t := fun r f => by
      refine wp_mono (recoverTasks_spec nowSecs r f hstep.inv (hrdy.next hstep)) ?_
        (fun _ _ he => he) (fun hp => hp)
      rintro - u ⟨hu, hkeep, hreleased, hgen⟩
      refine ⟨hu, hstep.keeps.trans hkeep, fun {x v} hv => ?_,
        fun x => (hgen x).trans (hstep.generations x)⟩
      obtain ⟨e', ht, hl'⟩ := hstep.record
      rcases hreleased hv with hnone | ⟨hx, hv'⟩
      · exact Or.inl hnone
      · rw [ht, get_insert] at hv'
        split_ifs at hv' with heq
        · cases hv'
          exact Or.inl hl'
        · refine Or.inr ⟨fun hmem => ?_, hv'⟩
          rcases List.mem_cons.mp hmem with hmem | hmem
          · exact heq hmem.symm
          · exact hx hmem
    cases disposition with
    | requeued => exact hrest (r + 1) f
    | failed => exact hrest r (f + 1)

/-- A worker none of whose leases is left holds nothing. -/
theorem Released.idle {ids : List String} (hrel : Released s ids t) (ht : Inv t)
    (hw : t.workers[id]? = some w)
    (hall : ∀ {x : String} {e : TaskEntry} {lease : TaskLease}, s.tasks[x]? = some e →
      e.task.lease = some lease → lease.workerId = id → x ∈ ids) : w.currentTasks = 0 := by
  rw [(ht.workers hw).2.1]
  refine countOf_eq_zero.mpr fun x e he => ?_
  cases hl : e.task.lease with
  | none => exact holds_of_none hl id
  | some lease =>
    rw [holds_of_lease hl]
    refine decide_eq_false fun hid => ?_
    rcases hrel he with hnone | ⟨hx, hs⟩
    · rw [hl] at hnone
      cases hnone
    · exact hx (hall hs hl hid)

/-! ### Pruning -/

/-- The worker holds nothing and has a next generation. -/
def Prunable (s : CoordinatorState) (id : String) (w : WorkerNode) : Prop :=
  s.workers[id]? = some w ∧ w.currentTasks = 0 ∧ w.generation < u64Max

/-- What the loop over the dead workers needs. -/
def PruneReady (s : CoordinatorState) (ids : List String) : Prop :=
  ids.Nodup ∧ ∀ id ∈ ids, ∃ w, Prunable s id w

/-- A worker that holds nothing goes offline. -/
theorem Inv.retire (h : Inv s) (hw : s.workers[id]? = some w)
    (hidle : w.currentTasks = 0) (generation : Nat) :
    Inv { s with workers := s.workers.insert id (w.retired generation) } := by
  obtain ⟨hid, -, hcap⟩ := h.workers hw
  refine h.setWorker _ rfl hid hcap (fun w' hw' => ?_) (fun hnone => ?_)
  · rw [hw] at hw'
    cases hw'
    exact ⟨rfl, Or.inr hidle⟩
  · rw [hw] at hnone
    cases hnone

theorem Keeps.retire (hw : s.workers[id]? = some w) (generation : Nat) :
    Keeps s { s with workers := s.workers.insert id (w.retired generation) } :=
  Keeps.setWorker rfl (by rw [completedBy, hw]; rfl)

theorem pruneWorker_eq (hw : Prunable s id w) :
    pruneWorker id s =
      .ok () { s with workers := s.workers.insert id (w.retired (w.generation + 1)) } := by
  obtain ⟨hnode, hidle, hgen⟩ := hw
  refine eq_ok_iff_wp.mpr ?_
  simp [pruneWorker, -getElem?_eq_none_iff, hnode, hidle, hgen]

theorem pruneWorkers_spec : ∀ {ids : List String} {s : CoordinatorState}, Inv s → PruneReady s ids →
    wp (pruneWorkers ids) (fun _ t => Inv t ∧ Keeps s t) (fun _ _ => False) False s
  | [], s, h, _ => ⟨h, Keeps.refl s⟩
  | id :: ids, s, h, ⟨hnd, hrdy⟩ => by
    obtain ⟨w, hw⟩ := hrdy id List.mem_cons_self
    obtain ⟨hid, hnd⟩ := List.nodup_cons.mp hnd
    simp only [pruneWorkers, wp_bind]
    rw [wp_of_eq_ok (pruneWorker_eq hw)]
    refine wp_mono (pruneWorkers_spec (h.retire hw.1 hw.2.1 _) ⟨hnd, fun x hx => ?_⟩)
      (fun _ u hu => ⟨hu.1, (Keeps.retire hw.1 _).trans hu.2⟩) (fun _ _ he => he) (fun hp => hp)
    obtain ⟨w', hw', hrest⟩ := hrdy x (List.mem_cons_of_mem _ hx)
    refine ⟨w', ?_, hrest⟩
    show (s.workers.insert id _)[x]? = some w'
    rw [get_insert_ne]
    · exact hw'
    · rintro rfl
      exact hid hx

theorem deadWorkers_nodup (nowSecs : Nat) : (deadWorkers s nowSecs).Nodup :=
  List.Sublist.nodup (List.filter_sublist.map _) (keys_nodup s.workers)

/-! ### Expiry -/

/-- The task is active and its version can be counted on. -/
def Expirable (s : CoordinatorState) (id : String) (e : TaskEntry) : Prop :=
  s.tasks[id]? = some e ∧ e.isActive = true ∧ e.task.recordVersion < u64Max

/-- What the loop over the aged tasks needs. -/
def ExpiryReady (s : CoordinatorState) (ids : List String) : Prop :=
  ids.Nodup ∧ ∀ id ∈ ids, ∃ e, Expirable s id e

theorem agedTasks_nodup (nowSecs taskTtlSecs : Nat) : (agedTasks s nowSecs taskTtlSecs).Nodup :=
  List.Sublist.nodup (List.filter_sublist.map _) (keys_nodup s.tasks)

theorem active_of_agedTasks {nowSecs taskTtlSecs : Nat}
    (hid : id ∈ agedTasks s nowSecs taskTtlSecs) :
    ∃ e : TaskEntry, s.tasks[id]? = some e ∧ e.isActive = true := by
  simp only [agedTasks, List.mem_map, List.mem_filter, Prod.exists, Bool.and_eq_true,
    exists_and_right, exists_eq_right] at hid
  obtain ⟨e, hmem, hact, -⟩ := hid
  exact ⟨e, mem_toList.mp hmem, hact⟩

theorem preflightExpiry_spec (h : Inv s) (he : s.tasks[id]? = some e) (ha : e.isActive = true) :
    Checked.wp (preflightExpiry s id) (fun _ => Expirable s id e)
      (fun e => ¬ e.IsStateInvariant) := by
  simp only [preflightExpiry, he, okOr, Checked.wp_rules, wp_nextCounter, IsStateInvariant,
    not_false_eq_true, implies_true, and_true]
  intro hv
  have hexp : Expirable s id e := ⟨he, ha, hv⟩
  have hleased : ∀ {lease : TaskLease}, e.task.lease = some lease →
      preflightWorkerRelease s lease = .ok () := fun hl => by
    obtain ⟨w, hto⟩ := h.leasedTo he hl
    exact hto.preflight h
  cases hs : e.task.status with
  | queued => simpa [h.ensureQueueEntry_eq he hs] using hexp
  | leased =>
    obtain ⟨-, lease, hl, -⟩ := (h.records he).leased (Or.inl hs)
    simpa [hl, hleased hl] using hexp
  | running =>
    obtain ⟨-, lease, hl, -⟩ := (h.records he).leased (Or.inr hs)
    simpa [hl, hleased hl] using hexp
  | _ => simp [TaskEntry.isActive, hs, TaskStatus.isActive] at ha

/-- One task expires, and only its record changes. -/
theorem expireTask_spec (h : Inv s) (hexp : Expirable s id e) (nowSecs : Nat) :
    wp (expireTask nowSecs id) (fun _ t => Inv t ∧ Keeps s t ∧ ∃ e', t.tasks = s.tasks.insert id e')
      (fun _ _ => False) False s := by
  obtain ⟨he, ha, hv⟩ := hexp
  have hrec := h.records he
  simp only [expireTask, wp_rules, he, okOr, Checked.wp_ok, wp_nextCounter]
  refine ⟨fun _ => ?_, fun hge => absurd hv hge.not_gt⟩
  have hleased : ∀ {lease : TaskLease}, e.task.lease = some lease →
      wp (terminalizeLeasedTask lease .expired nowSecs (e.task.recordVersion + 1))
        (fun _ t => Inv t ∧ Keeps s t ∧ ∃ e', t.tasks = s.tasks.insert id e')
        (fun _ _ => False) False s := fun {lease} hl => by
    obtain ⟨w, hto⟩ := h.leasedTo he hl
    rw [wp_of_eq_ok (terminalizeLeasedTask_eq h hto .expired rfl _ _)]
    have hrec' := hrec.leasedStopped hl .expired rfl (by decide) nowSecs e.task.recordVersion rfl
      rfl rfl
    exact ⟨h.endLeased hto hrec' rfl, Keeps.endLeased h hto rfl, _,
      by rw [CoordinatorState.endLeased, hto.taskId h]⟩
  cases hs : e.task.status with
  | queued =>
    obtain ⟨key, hkey, -⟩ := h.key_of_queued he hs
    show wp (terminalizeQueuedTask _ _ _ _) _ _ _ _
    rw [wp_of_eq_ok (terminalizeQueuedTask_eq h he hkey .expired rfl _ _)]
    have hrec' := hrec.queuedEnded hs .expired rfl (by decide) nowSecs e.task.recordVersion rfl rfl
      rfl
    exact ⟨h.endQueued he hkey hrec' rfl, Keeps.endQueued h he hkey rfl, _, rfl⟩
  | leased =>
    obtain ⟨-, lease, hl, -⟩ := hrec.leased (Or.inl hs)
    simpa [hl] using hleased hl
  | running =>
    obtain ⟨-, lease, hl, -⟩ := hrec.leased (Or.inr hs)
    simpa [hl] using hleased hl
  | _ => simp [TaskEntry.isActive, hs, TaskStatus.isActive] at ha

theorem expireTasks_spec (nowSecs : Nat) : ∀ {ids : List String} {s : CoordinatorState}, Inv s →
    ExpiryReady s ids →
    wp (expireTasks nowSecs ids) (fun _ t => Inv t ∧ Keeps s t) (fun _ _ => False) False s
  | [], s, h, _ => ⟨h, Keeps.refl s⟩
  | id :: ids, s, h, ⟨hnd, hrdy⟩ => by
    obtain ⟨e, hexp⟩ := hrdy id List.mem_cons_self
    obtain ⟨hid, hnd⟩ := List.nodup_cons.mp hnd
    simp only [expireTasks, wp_bind]
    refine wp_mono (expireTask_spec h hexp nowSecs) ?_ (fun _ _ he => he) (fun hp => hp)
    rintro - t ⟨ht, hkeep, e', htk⟩
    refine wp_mono (expireTasks_spec nowSecs ht ⟨hnd, fun x hx => ?_⟩)
      (fun _ u hu => ⟨hu.1, hkeep.trans hu.2⟩) (fun _ _ he => he) (fun hp => hp)
    obtain ⟨v, hv, hrest⟩ := hrdy x (List.mem_cons_of_mem _ hx)
    refine ⟨v, ?_, hrest⟩
    rw [htk, get_insert_ne]
    · exact hv
    · rintro rfl
      exact hid hx

end Termivar.Distributed
